import PgJobQ.Worker.Listener

/-!
# The connections of the listener

`connectAndListen` makes a client and connects it before it checks a channel,
and has no code that ends it: a client whose attempt fails later stays
connected until the server or the network ends it.  The next attempt puts its
own client into `this.client`, which is the only one that `stop` ends.
-/

namespace PgJobQ

open Runs

/-- How the promise `ended` was settled. -/
inductive EndOutcome where
  | resolved
  | rejected
  deriving DecidableEq, Repr

structure PgClient where
  connected : Bool
  ended : Bool
  settled : Option EndOutcome
  deriving DecidableEq, Repr

namespace PgClient

def new : PgClient := ⟨false, false, none⟩

/-- Connected and not ended. -/
def isOpen (client : PgClient) : Bool := client.connected && !client.ended

/-- The event `error`. -/
def onError (client : PgClient) : PgClient :=
  { client with settled := client.settled <|> some .rejected }

/-- The event `end`. -/
def onEnd (client : PgClient) : PgClient :=
  { client with ended := true, settled := client.settled <|> some .resolved }

end PgClient

/-- Where the call of `stop` stands: at `client.end()`, at `this.loopPromise`, or
returned.  The pool calls it once. -/
inductive StopCall where
  | notCalled
  | ending
  | joining
  | returned
  deriving DecidableEq, Repr

/-- The loop with the clients it has made, the newest first.  `holdsClient` tells
whether `this.client` is the newest one, or undefined. -/
structure ListenerConnections where
  listener : Listener
  clients : List PgClient
  holdsClient : Bool
  stopCall : StopCall
  deriving DecidableEq, Repr

/-- What happens: `connect` and `LISTEN` succeed or fail, a client errs or ends
(given by how many are newer), `await ended` goes on, the sleep is over, and
`stop` is called or goes on. -/
inductive ConnectionLabel where
  | start
  | connected
  | refused
  | listened
  | rejected
  | erred (newer : Nat)
  | ended (newer : Nat)
  | settled
  | woke
  | stop
  | stopGoesOn
  deriving DecidableEq, Repr

namespace ListenerConnections

def new : ListenerConnections := ⟨.new, [], false, .notCalled⟩

/-- The client of the attempt. -/
def newest (state : ListenerConnections) : PgClient := state.clients.headD .new

/-- A step of the loop.  When it comes to an attempt, that begins with a new
client. -/
def advance (opts : ListenerOptions) (state : ListenerConnections) (label : ListenerLabel) :
    ListenerConnections :=
  let listener := state.listener.step opts label
  if listener.phase = .connecting ∧ state.listener.phase ≠ .connecting then
    { state with listener, clients := .new :: state.clients, holdsClient := true }
  else { state with listener }

def step (opts : ListenerOptions) (state : ListenerConnections) :
    ConnectionLabel -> ListenerConnections
  | .start => state.advance opts .start
  | .connected =>
      if state.listener.phase = .connecting ∧ state.newest.ended = false then
        advance opts { state with
          clients := state.clients.modifyHead (fun client => { client with connected := true }) }
          .answered
      else state
  | .refused =>
      if state.listener.phase = .connecting then
        advance opts { state with
          clients := state.clients.modifyHead (fun client => { client with ended := true }) }
          .failed
      else state
  | .listened =>
      match state.listener.phase with
      | .subscribing _ => if state.newest.isOpen then state.advance opts .answered else state
      | _ => state
  | .rejected =>
      match state.listener.phase with
      | .subscribing _ => state.advance opts .failed
      | _ => state
  | .erred newer => { state with clients := state.clients.modify newer PgClient.onError }
  | .ended newer => { state with clients := state.clients.modify newer PgClient.onEnd }
  | .settled =>
      match state.listener.phase, state.newest.settled with
      | .listening, some .resolved => state.advance opts .ended
      | .listening, some .rejected => state.advance opts .failed
      | _, _ => state
  | .woke => state.advance opts .woke
  | .stop =>
      match state.stopCall with
      | .notCalled =>
          { state.advance opts .stop with
            holdsClient := false
            stopCall := if state.holdsClient then .ending else .joining }
      | _ => state
  | .stopGoesOn =>
      match state.stopCall with
      | .ending => if state.newest.ended then { state with stopCall := .joining } else state
      | .joining =>
          match state.listener.phase with
          | .idle => { state with stopCall := .returned }
          | .ended => { state with stopCall := .returned }
          | _ => state
      | _ => state

/-! ## What the loop is to keep -/

/-- At most one client is connected, and after `stop` none is. -/
structure OneConnection (state : ListenerConnections) : Prop where
  atMostOne : state.clients.countP PgClient.isOpen ≤ 1
  noneAfterStop : state.stopCall = .returned -> state.clients.countP PgClient.isOpen = 0

/-- A failed attempt is followed by the next one while its client is still
connected. -/
def Abandons (state : ListenerConnections) (label : ConnectionLabel) : Prop :=
  label = .woke ∧ (Exists fun atMost : Nat => state.listener.phase = .sleeping atMost) ∧
    state.listener.stopped = false ∧ state.newest.isOpen = true

/-! ## One step -/

variable {opts : ListenerOptions} {state : ListenerConnections}

/-- A step of the loop begins an attempt: the first one, the one after a
connection that ended, or the one after a sleep. -/
structure Begins (listener : Listener) (label : ListenerLabel) : Prop where
  runs : listener.stopped = false
  from_phase : (label = .start ∧ listener.phase = .idle) ∨
    (label = .ended ∧ listener.phase = .listening) ∨
      (label = .woke ∧ Exists fun atMost : Nat => listener.phase = .sleeping atMost)

theorem again_connecting {listener : Listener} (connecting : listener.again.phase = .connecting) :
    listener.stopped = false := by
  unfold Listener.again at connecting
  cases runs : listener.stopped with
  | false => rfl
  | true => simp [runs] at connecting

theorem fail_not_connecting (listener : Listener) : (listener.fail opts).phase ≠ .connecting := by
  unfold Listener.fail
  split <;> exact ListenerPhase.noConfusion

theorem subscribe_not_connecting (listener : Listener) (queues : List String) :
    (listener.subscribe opts queues).phase ≠ .connecting := by
  unfold Listener.subscribe
  split
  · exact ListenerPhase.noConfusion
  · split
    · exact fail_not_connecting listener
    · exact ListenerPhase.noConfusion

theorem begins_of_connecting {listener : Listener} {label : ListenerLabel}
    (connecting : (listener.step opts label).phase = .connecting)
    (before : listener.phase ≠ .connecting) : Begins listener label := by
  cases label with
  | start =>
      cases isPhase : listener.phase with
      | idle =>
          simp only [Listener.step, isPhase] at connecting
          exact ⟨again_connecting connecting, Or.inl ⟨rfl, isPhase⟩⟩
      | _ => simp [Listener.step, isPhase] at connecting before
  | answered =>
      cases isPhase : listener.phase with
      | connecting => exact absurd isPhase before
      | subscribing queues =>
          simp only [Listener.step, isPhase] at connecting
          exact absurd connecting (subscribe_not_connecting listener _)
      | _ => simp [Listener.step, isPhase] at connecting
  | failed =>
      cases isPhase : listener.phase with
      | connecting => exact absurd isPhase before
      | subscribing queues =>
          simp only [Listener.step, isPhase] at connecting
          exact absurd connecting (fail_not_connecting listener)
      | listening =>
          simp only [Listener.step, isPhase] at connecting
          exact absurd connecting (fail_not_connecting listener)
      | _ => simp [Listener.step, isPhase] at connecting
  | ended =>
      cases isPhase : listener.phase with
      | listening =>
          simp only [Listener.step, isPhase] at connecting
          exact ⟨@again_connecting { listener with connected := false } connecting,
            Or.inr (Or.inl ⟨rfl, isPhase⟩)⟩
      | _ => simp [Listener.step, isPhase] at connecting before
  | woke =>
      cases isPhase : listener.phase with
      | sleeping atMost =>
          simp only [Listener.step, isPhase] at connecting
          exact ⟨again_connecting connecting, Or.inr (Or.inr ⟨rfl, atMost, isPhase⟩)⟩
      | _ => simp [Listener.step, isPhase] at connecting before
  | stop => exact absurd connecting before

theorem fail_stopped (listener : Listener) :
    (listener.fail opts).stopped = listener.stopped := by
  unfold Listener.fail
  split <;> rfl

theorem subscribe_stopped (listener : Listener) (queues : List String) :
    (listener.subscribe opts queues).stopped = listener.stopped := by
  unfold Listener.subscribe
  split
  · rfl
  · split
    · exact fail_stopped listener
    · rfl

/-- A listener that was stopped stays so. -/
theorem step_stopped {listener : Listener} (stopped : listener.stopped = true)
    (label : ListenerLabel) : (listener.step opts label).stopped = true := by
  have failed : (listener.fail opts).stopped = true := (fail_stopped listener).trans stopped
  cases label with
  | start =>
      cases isPhase : listener.phase <;>
        simpa only [Listener.step, isPhase, Listener.again] using stopped
  | answered =>
      cases isPhase : listener.phase with
      | connecting =>
          simp only [Listener.step, isPhase]
          exact (subscribe_stopped listener _).trans stopped
      | subscribing queues =>
          simp only [Listener.step, isPhase]
          exact (subscribe_stopped listener _).trans stopped
      | _ => simpa only [Listener.step, isPhase] using stopped
  | failed =>
      cases isPhase : listener.phase with
      | connecting => simpa only [Listener.step, isPhase] using failed
      | subscribing queues => simpa only [Listener.step, isPhase] using failed
      | listening => simpa only [Listener.step, isPhase] using failed
      | _ => simpa only [Listener.step, isPhase] using stopped
  | ended =>
      cases isPhase : listener.phase <;>
        simpa only [Listener.step, isPhase, Listener.again] using stopped
  | woke =>
      cases isPhase : listener.phase <;>
        simpa only [Listener.step, isPhase, Listener.again] using stopped
  | stop => rfl

/-! ## The invariant -/

/-- Only the newest client may be connected, and once `stop` is past
`client.end()` it has ended too. -/
structure Kept (state : ListenerConnections) : Prop where
  older : forall client, client ∈ state.clients.tail -> client.isOpen = false
  resolved : state.newest.settled = some .resolved -> state.newest.ended = true
  idle : state.listener.phase = .idle -> state.clients = []
  held : state.stopCall = .notCalled -> state.holdsClient = false -> state.clients = []
  stopped : state.stopCall ≠ .notCalled -> state.listener.stopped = true
  joined : state.stopCall = .joining ∨ state.stopCall = .returned ->
    state.clients = [] ∨ state.newest.ended = true

theorem isOpen_of_ended {client : PgClient} (ended : client.ended = true) :
    client.isOpen = false := by
  unfold PgClient.isOpen
  rw [ended]
  exact Bool.and_false _

namespace Kept

theorem new : Kept new where
  older := fun _ member => absurd member List.not_mem_nil
  resolved := fun impossible => by cases impossible
  idle := fun _ => rfl
  held := fun _ _ => rfl
  stopped := fun called => absurd rfl called
  joined := fun _ => Or.inl rfl

/-- What the clients tell. -/
theorem oneConnection (kept : Kept state) : OneConnection state := by
  have older : state.clients.tail.countP PgClient.isOpen = 0 := by
    apply List.countP_eq_zero.mpr
    intro client member
    exact Bool.eq_false_iff.mp (kept.older client member)
  constructor
  · cases clients : state.clients with
    | nil => exact Nat.zero_le 1
    | cons client rest =>
        rw [clients, List.tail_cons] at older
        rw [List.countP_cons, older]
        split <;> omega
  · intro returned
    rcases kept.joined (Or.inr returned) with none | ended
    · rw [none]
      rfl
    · unfold newest at ended
      cases clients : state.clients with
      | nil => rfl
      | cons client rest =>
          rw [clients, List.tail_cons] at older
          rw [clients, List.headD_cons] at ended
          rw [List.countP_cons, older, isOpen_of_ended ended]
          rfl

/-- An event of a client: no client opens, comes back or resolves by it without
having ended. -/
theorem modify (kept : Kept state) {change : PgClient -> PgClient}
    (staysShut : forall client : PgClient, client.isOpen = false -> (change client).isOpen = false)
    (staysEnded : forall client : PgClient, client.ended = true -> (change client).ended = true)
    (resolves : forall client : PgClient, (change client).settled = some .resolved ->
      client.settled = some .resolved ∨ (change client).ended = true) (newer : Nat) :
    Kept { state with clients := state.clients.modify newer change } := by
  rcases kept with ⟨older, resolved, idle, held, stopped, joined⟩
  unfold newest at resolved joined
  cases clients : state.clients with
  | nil =>
      rw [List.modify_nil]
      rw [clients] at older resolved idle held joined
      exact ⟨older, resolved, idle, held, stopped, joined⟩
  | cons client rest =>
      rw [clients] at older resolved idle held joined
      rw [List.headD_cons] at resolved joined
      have some := List.cons_ne_nil client rest
      have endedNow := fun past => (joined past).resolve_left some
      cases newer with
      | zero =>
          refine ⟨older, fun settles => ?_, fun isIdle => absurd (idle isIdle) some,
            fun notCalled undefined => absurd (held notCalled undefined) some, stopped,
            fun past => Or.inr (staysEnded client (endedNow past))⟩
          exact (resolves client settles).elim (fun before => staysEnded client (resolved before)) id
      | succ newer =>
          refine ⟨?_, resolved, fun isIdle => absurd (idle isIdle) some,
            fun notCalled undefined => absurd (held notCalled undefined) some, stopped,
            fun past => Or.inr (endedNow past)⟩
          intro other member
          rcases List.mem_iff_getElem?.mp member with ⟨index, found⟩
          rw [List.modify_succ_cons, List.tail_cons, List.getElem?_modify] at found
          rcases Option.map_eq_some_iff.mp found with ⟨before, at_index, same⟩
          have shut := older before (List.mem_of_getElem? at_index)
          subst same
          split
          · exact staysShut before shut
          · exact shut

/-- The attempt's client connects. -/
theorem connect (kept : Kept state) :
    Kept { state with
      clients := state.clients.modifyHead (fun client => { client with connected := true }) } := by
  rcases kept with ⟨older, resolved, idle, held, stopped, joined⟩
  unfold newest at resolved joined
  cases clients : state.clients with
  | nil =>
      rw [clients] at older resolved idle held joined
      exact ⟨older, resolved, idle, held, stopped, joined⟩
  | cons client rest =>
      rw [clients] at older resolved idle held joined
      refine ⟨older, resolved, fun isIdle => ?_, fun notCalled undefined => ?_, stopped,
        fun past => Or.inr ((joined past).resolve_left (List.cons_ne_nil client rest))⟩
      · exact absurd (idle isIdle) (List.cons_ne_nil client rest)
      · exact absurd (held notCalled undefined) (List.cons_ne_nil client rest)

/-- A step of the loop, when no attempt begins while a client is connected. -/
theorem advance (kept : Kept state) {label : ListenerLabel}
    (shut : Begins state.listener label -> state.newest.isOpen = false) :
    Kept (state.advance opts label) := by
  have notIdle : (state.listener.step opts label).phase = .idle -> state.clients = [] := by
    intro idle
    by_contra some
    have before : state.listener.phase ≠ .idle := fun isIdle => some (kept.idle isIdle)
    exact Listener.step_not_idle (Or.inl before) idle
  unfold ListenerConnections.advance
  dsimp only
  split
  · rename_i begun
    have begins := begins_of_connecting begun.1 begun.2
    have notCalled : state.stopCall = .notCalled := by
      by_contra called
      exact absurd ((kept.stopped called).symm.trans begins.runs) Bool.noConfusion
    have notBoth : Not (state.stopCall = .joining ∨ state.stopCall = .returned) := by
      rw [notCalled]
      decide
    refine ⟨?_, fun impossible => (by cases impossible), fun isIdle => ?_,
      fun _ undefined => Bool.noConfusion undefined, fun called => absurd notCalled called,
      fun past => absurd past notBoth⟩
    · intro client member
      rw [List.tail_cons] at member
      cases clients : state.clients with
      | nil =>
          rw [clients] at member
          cases member
      | cons first rest =>
          have shut := shut begins
          rw [newest, clients, List.headD_cons] at shut
          rw [clients] at member
          rcases List.mem_cons.mp member with rfl | later
          · exact shut
          · exact kept.older client (by rw [clients]; exact later)
    · exact absurd (begun.1.symm.trans isIdle) ListenerPhase.noConfusion
  · refine ⟨kept.older, kept.resolved, notIdle, kept.held, ?_, kept.joined⟩
    intro called
    exact step_stopped (kept.stopped called) label

/-- A step of the loop that begins no attempt. -/
theorem advance_on (kept : Kept state) {label : ListenerLabel} (later : label = .answered ∨ label = .failed) :
    Kept (state.advance opts label) := by
  apply kept.advance
  intro begins
  rcases later with rfl | rfl
  · rcases begins.from_phase with ⟨impossible, _⟩ | ⟨impossible, _⟩ | ⟨impossible, _⟩ <;> cases impossible
  · rcases begins.from_phase with ⟨impossible, _⟩ | ⟨impossible, _⟩ | ⟨impossible, _⟩ <;> cases impossible

theorem stop_call (kept : Kept state) (notCalled : state.stopCall = .notCalled) :
    Kept { state.advance opts .stop with
      holdsClient := false
      stopCall := if state.holdsClient then .ending else .joining } := by
  have stays : state.advance opts .stop =
      { state with listener := state.listener.step opts .stop } :=
    if_neg (fun begins => begins.2 begins.1)
  rw [stays]
  refine ⟨kept.older, kept.resolved, kept.idle, ?_, fun _ => rfl, ?_⟩
  · intro impossible
    dsimp only at impossible
    split at impossible <;> cases impossible
  · intro past
    left
    apply kept.held notCalled
    cases holds : state.holdsClient with
    | false => rfl
    | true =>
        rw [holds] at past
        rcases past with impossible | impossible <;> cases impossible

theorem step (kept : Kept state) {label : ConnectionLabel} (follows : Not (Abandons state label)) :
    Kept (state.step opts label) := by
  cases label with
  | start =>
      apply kept.advance
      intro begins
      rcases begins.from_phase with ⟨_, idle⟩ | ⟨impossible, _⟩ | ⟨impossible, _⟩
      · rw [newest, kept.idle idle]
        rfl
      · cases impossible
      · cases impossible
  | connected =>
      unfold ListenerConnections.step
      dsimp only
      split
      · exact kept.connect.advance_on (Or.inl rfl)
      · exact kept
  | refused =>
      unfold ListenerConnections.step
      dsimp only
      split
      · rw [List.modifyHead_eq_modify_zero]
        apply advance_on _ (Or.inr rfl)
        apply kept.modify
        · exact fun client _ => isOpen_of_ended rfl
        · exact fun _ _ => rfl
        · exact fun _ _ => Or.inr rfl
      · exact kept
  | listened =>
      unfold ListenerConnections.step
      dsimp only
      split
      · split
        · exact kept.advance_on (Or.inl rfl)
        · exact kept
      · exact kept
  | rejected =>
      unfold ListenerConnections.step
      dsimp only
      split
      · exact kept.advance_on (Or.inr rfl)
      · exact kept
  | erred newer =>
      apply kept.modify
      · exact fun client shut => shut
      · exact fun client ended => ended
      · intro client settles
        cases settled : client.settled with
        | none => simp [PgClient.onError, settled] at settles
        | some how =>
            left
            simpa [PgClient.onError, settled] using settles
  | ended newer =>
      apply kept.modify
      · exact fun client _ => isOpen_of_ended rfl
      · exact fun _ _ => rfl
      · exact fun _ _ => Or.inr rfl
  | settled =>
      unfold ListenerConnections.step
      dsimp only
      split
      · rename_i settled
        apply kept.advance
        exact fun _ => isOpen_of_ended (kept.resolved settled)
      · exact kept.advance_on (Or.inr rfl)
      · exact kept
  | woke =>
      apply kept.advance
      intro begins
      rcases begins.from_phase with ⟨impossible, _⟩ | ⟨impossible, _⟩ | ⟨_, sleeping⟩
      · cases impossible
      · cases impossible
      · exact Bool.eq_false_iff.mpr (fun isOpen => follows ⟨rfl, sleeping, begins.runs, isOpen⟩)
  | stop =>
      unfold ListenerConnections.step
      dsimp only
      split
      · rename_i notCalled
        exact kept.stop_call notCalled
      · exact kept
  | stopGoesOn =>
      unfold ListenerConnections.step
      dsimp only
      split
      · rename_i ending
        have called : state.stopCall ≠ .notCalled := by
          rw [ending]
          decide
        split
        · rename_i ended
          exact ⟨kept.older, kept.resolved, kept.idle, fun impossible => (by cases impossible),
            fun _ => kept.stopped called, fun _ => Or.inr ended⟩
        · exact kept
      · rename_i joining
        have called : state.stopCall ≠ .notCalled := by
          rw [joining]
          decide
        have returns : Kept { state with stopCall := .returned } :=
          ⟨kept.older, kept.resolved, kept.idle, fun impossible => (by cases impossible),
            fun _ => kept.stopped called, fun _ => kept.joined (Or.inl joining)⟩
        split
        · exact returns
        · exact returns
        · exact kept
      · exact kept

end Kept

/-! ## Runs -/

/-- The next attempt has a connection beside the one given up as soon as it
connects. -/
theorem not_oneConnection_of_abandons {label : ConnectionLabel} (abandons : Abandons state label) :
    Not (OneConnection ((state.step opts label).step opts .connected)) := by
  rcases abandons with ⟨rfl, ⟨atMost, sleeping⟩, runs, isOpen⟩
  intro one
  have retried : state.step opts .woke =
      { state with
        listener := { state.listener with phase := .connecting }
        clients := .new :: state.clients
        holdsClient := true } := by
    have again : state.listener.step opts .woke = { state.listener with phase := .connecting } := by
      simp only [Listener.step, sleeping, Listener.again, runs, Bool.false_eq_true, if_false]
    have apart : state.listener.phase ≠ .connecting := by
      rw [sleeping]
      exact ListenerPhase.noConfusion
    unfold step ListenerConnections.advance
    dsimp only
    rw [again, if_pos ⟨rfl, apart⟩]
  have connects : ((state.step opts .woke).step opts .connected).clients =
      { PgClient.new with connected := true } :: state.clients := by
    rw [retried, step, if_pos ⟨rfl, rfl⟩, ListenerConnections.advance]
    dsimp only
    rw [if_neg (fun begins => begins.2 rfl)]
    rfl
  have two := one.atMostOne
  rw [connects] at two
  cases clients : state.clients with
  | nil =>
      rw [newest, clients] at isOpen
      exact absurd isOpen (by decide)
  | cons client rest =>
      rw [newest, clients, List.headD_cons] at isOpen
      rw [clients, List.countP_cons_of_pos rfl, List.countP_cons_of_pos isOpen] at two
      omega

/-- In a run of the listener there is at most one connection in every state, and
none after `stop`, and this is still so when the attempt under way connects,
exactly when no failed attempt is followed by the next one while its client is
still connected. -/
theorem one_connection_iff (opts : ListenerOptions) (labels : List ConnectionLabel) :
    Always (step opts)
        (fun state => OneConnection state ∧ OneConnection (state.step opts .connected)) new labels <->
      EachStep (step opts) (fun state label => Not (Abandons state label)) new labels := by
  apply @always_iff_eachStep _ _ _ Kept
  · intro state kept
    have goesOn : Not (Abandons state .connected) := fun abandons => by cases abandons.1
    exact ⟨kept.oneConnection, (kept.step goesOn).oneConnection⟩
  · exact fun _ _ kept follows => kept.step follows
  · exact fun _ _ _ abandons holds => not_oneConnection_of_abandons (not_not.mp abandons) holds.2
  · exact Kept.new

/-- A worker of a queue whose name is too long connects, is refused the channel
and connects again.  Then it has two connections, and `stop` leaves one. -/
theorem longName_leaks :
    Not (forall (opts : ListenerOptions) (labels : List ConnectionLabel),
      Always (step opts) OneConnection new labels) ∧
    (run (step ⟨[longName.text], 500, 30000⟩) new [.start, .connected, .woke, .connected]).clients.countP
      PgClient.isOpen = 2 ∧
    let stopped := run (step ⟨[longName.text], 500, 30000⟩) new
      [.start, .connected, .woke, .connected, .stop, .ended 0, .stopGoesOn, .woke, .stopGoesOn]
    stopped.stopCall = .returned ∧ stopped.clients.countP PgClient.isOpen = 1 := by
  have two : (run (step ⟨[longName.text], 500, 30000⟩) new
      [.start, .connected, .woke, .connected]).clients.countP PgClient.isOpen = 2 := by decide
  refine ⟨fun always => ?_, two, by decide⟩
  have reached := (always_iff_forall_initial _ _ _ _).mp
    (always ⟨[longName.text], 500, 30000⟩ [.start, .connected, .woke, .connected]) _ List.prefix_rfl
  have one := reached.atMostOne
  omega

end ListenerConnections

end PgJobQ
