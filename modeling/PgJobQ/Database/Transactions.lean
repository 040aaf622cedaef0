import PgJobQ.Database.Connecting
import PgJobQ.Migrations.Files

/-!
# Transactions

`Db.withTransaction` takes a client from the pool, sends `BEGIN`, runs a
callback on it, and sends `COMMIT`, or `ROLLBACK` if anything was thrown.  The
client is given back in any case, and what was thrown first is what the caller
sees.

A statement that fails aborts its transaction.  The server refuses what follows
until the transaction ends, and ends an aborted transaction by rolling it back,
also when it is asked to commit it, and without an error.  A connection that
breaks loses its open transaction, but a `COMMIT` may have been executed before
its answer was lost.

The callback may do anything with the answers to its statements, and may also
catch an error and go on.  What other sessions do meanwhile is not looked at
here.
-/

namespace PgJobQ

variable {Store Value Answer Result : Type}

/-! ## The server -/

structure SafeStatement (Value : Type) where
  text : String
  values : List Value
  deriving DecidableEq, Repr

/-- The transaction of a connection. -/
inductive TransactionState (Store : Type) where
  | idle
  | open (working : Store)
  | aborted

/-- A client of the pool, and what is committed in the database. -/
structure Connection (Store : Type) where
  committed : Store
  transaction : TransactionState Store
  broken : Bool

/-- The server as far as a transaction goes: what a statement does, what the
checks that wait for the end of the transaction find, and the errors of an
aborted transaction and of a broken connection. -/
structure Server (Store Value Answer : Type) where
  execute : SafeStatement Value -> Store -> Except Raised (Store × Answer)
  deferred : Store -> Option Raised
  inFailedTransaction : Raised
  connectionLost : Raised

/-- Whether the connection breaks at a command, before the server has executed
it or before its answer arrives. -/
inductive Break where
  | none
  | before
  | after
  deriving DecidableEq, Repr

namespace Connection

variable (server : Server Store Value Answer) (connection : Connection Store)

/-- The transaction is lost with the connection. -/
def breaks : Connection Store := { connection with transaction := .idle, broken := true }

def begin : Except Raised Unit × Connection Store :=
  match connection.transaction with
  | .idle => (.ok (), { connection with transaction := .open connection.committed })
  | _ => (.ok (), connection)

def commit : Except Raised Unit × Connection Store :=
  match connection.transaction with
  | .open working =>
      match server.deferred working with
      | none => (.ok (), { connection with committed := working, transaction := .idle })
      | some failure => (.error failure, { connection with transaction := .idle })
  | _ => (.ok (), { connection with transaction := .idle })

def rollback : Except Raised Unit × Connection Store :=
  (.ok (), { connection with transaction := .idle })

/-- A statement, which is taken not to be transaction control: the one caller of
`withTransaction` is `migrateUp`, and its callback sends none. -/
def query (s : SafeStatement Value) : Except Raised Answer × Connection Store :=
  match connection.transaction with
  | .open working =>
      match server.execute s working with
      | .ok (next, answer) => (.ok answer, { connection with transaction := .open next })
      | .error failure => (.error failure, { connection with transaction := .aborted })
  | .aborted => (.error server.inFailedTransaction, connection)
  | .idle =>
      match server.execute s connection.committed with
      | .ok (next, answer) => (.ok answer, { connection with committed := next })
      | .error failure => (.error failure, connection)

/-- Send a command, which the server would answer so, on a connection that may
break. -/
def send {Reply : Type} (interruption : Break) (served : Except Raised Reply × Connection Store) :
    Except Raised Reply × Connection Store :=
  if connection.broken then (.error server.connectionLost, connection)
  else match interruption with
    | .none => served
    | .before => (.error server.connectionLost, connection.breaks)
    | .after => (.error server.connectionLost, served.2.breaks)

end Connection

/-! ## `withTransaction` -/

/-- A callback: what it does with the answers to its statements, and with their
errors. -/
inductive Callback (Value Answer Result : Type) where
  | returns (result : Result)
  | throws (failure : Raised)
  | query (s : SafeStatement Value) (next : Except Raised Answer -> Callback Value Answer Result)

/-- What a run of `withTransaction` leaves behind: the client it gives back, and
the statements of the callback. -/
structure Ended (Store Value Result : Type) where
  result : Except Raised Result
  client : Connection Store
  statements : List (SafeStatement Value)

/-- `tx.query`, as the next of the commands. -/
def Connection.txQuery (server : Server Store Value Answer) (interruption : Break)
    (client : Connection Store) (s : SafeStatement Value) :
    Except Raised Answer × Connection Store :=
  let answered := client.send server interruption (client.query server s)
  (answered.1.mapError (fun e => e.wrapDbError s.text), answered.2)

/-- Run the callback on the client.  `breaks n` is what happens at the `n`-th
command, of which `BEGIN` is number 0. -/
def runCallback (server : Server Store Value Answer) (breaks : Nat -> Break) :
    Callback Value Answer Result -> Connection Store -> List (SafeStatement Value) ->
      Ended Store Value Result
  | .returns result, client, sent => ⟨.ok result, client, sent⟩
  | .throws failure, client, sent => ⟨.error failure, client, sent⟩
  | .query s next, client, sent =>
      let answered := client.txQuery server (breaks (sent.length + 1)) s
      runCallback server breaks (next answered.1) answered.2 (sent ++ [s])

/-- The `catch` block: a failed rollback is ignored. -/
def rollBack (server : Server Store Value Answer) (interruption : Break) (failure : Raised)
    (client : Connection Store) (sent : List (SafeStatement Value)) : Ended Store Value Result :=
  ⟨.error failure, (client.send server interruption client.rollback).2, sent⟩

/-- What follows the callback. -/
def endTransaction (server : Server Store Value Answer) (breaks : Nat -> Break)
    (ran : Ended Store Value Result) : Ended Store Value Result :=
  match ran.result with
  | .error failure =>
      rollBack server (breaks (ran.statements.length + 1)) failure ran.client ran.statements
  | .ok result =>
      let done := ran.client.send server (breaks (ran.statements.length + 1))
        (ran.client.commit server)
      match done.1 with
      | .error failure =>
          rollBack server (breaks (ran.statements.length + 2)) failure done.2 ran.statements
      | .ok _ => ⟨.ok result, done.2, ran.statements⟩

def withTransaction (server : Server Store Value Answer) (breaks : Nat -> Break)
    (fn : Callback Value Answer Result) (client : Connection Store) : Ended Store Value Result :=
  let begun := client.send server (breaks 0) client.begin
  match begun.1 with
  | .error failure => rollBack server (breaks 1) failure begun.2 []
  | .ok _ => endTransaction server breaks (runCallback server breaks fn begun.2 [])

/-! ## The callback of `migrateUp` -/

/-- The bookkeeping row of the migration. -/
def Migration.bookkeeping (migration : Migration) : SafeStatement (Nat ⊕ String) :=
  ⟨"INSERT INTO pgjobq_migration (version, name, checksum) VALUES ($1, $2, $3)",
    [.inl migration.version, .inr migration.name, .inr migration.checksum]⟩

/-- The SQL of the migration and its bookkeeping row, in one transaction. -/
def Migration.applying (migration : Migration) : Callback (Nat ⊕ String) Answer Unit :=
  .query ⟨migration.sql, []⟩ fun
    | .error failure => .throws failure
    | .ok _ => .query migration.bookkeeping fun
      | .error failure => .throws failure
      | .ok _ => .returns ()

/-! ## What the statements do -/

/-- The statements one after the other, if none of them fails. -/
def Server.replay (server : Server Store Value Answer) :
    List (SafeStatement Value) -> Store -> Option Store
  | [], store => some store
  | s :: rest, store =>
      match server.execute s store with
      | .ok (next, _) => server.replay rest next
      | .error _ => none

/-- The transaction after its statements. -/
def TransactionState.ofReplay : Option Store -> TransactionState Store
  | some working => .open working
  | none => .aborted

/-- The client inside the transaction: nothing is committed, and the transaction
holds what the statements do, or is lost with the connection. -/
structure Connection.Within (server : Server Store Value Answer) (start : Store)
    (sent : List (SafeStatement Value)) (client : Connection Store) : Prop where
  committed : client.committed = start
  transaction : client.broken = true ∧ client.transaction = .idle ∨
    client.broken = false ∧ client.transaction = .ofReplay (server.replay sent start)

/-- The callback may send these statements, depending on what is answered, and
return this result. -/
inductive Callback.Returns :
    Callback Value Answer Result -> List (SafeStatement Value) -> Result -> Prop where
  | returns (result : Result) : Returns (.returns result) [] result
  | query {s : SafeStatement Value} {next : Except Raised Answer -> Callback Value Answer Result}
      {rest : List (SafeStatement Value)} {result : Result} (answered : Except Raised Answer)
      (goesOn : Returns (next answered) rest result) : Returns (.query s next) (s :: rest) result

/-- The callback lets the error of a statement through. -/
def Callback.LetsThrough : Callback Value Answer Result -> Prop
  | .returns _ => True
  | .throws _ => True
  | .query _ next => (forall failure : Raised, next (.error failure) = .throws failure) ∧
      forall answer : Answer, (next (.ok answer)).LetsThrough

section Sending

variable {server : Server Store Value Answer} {start : Store} {sent : List (SafeStatement Value)}
  {client : Connection Store}

theorem Server.replay_of_error {s : SafeStatement Value} {store : Store} {failure : Raised}
    (executed : server.execute s store = .error failure) (rest : List (SafeStatement Value)) :
    server.replay (s :: rest) store = none := by
  rw [Server.replay, executed]

theorem Server.replay_of_ok {s : SafeStatement Value} {store next : Store} {answer : Answer}
    (executed : server.execute s store = .ok (next, answer)) (rest : List (SafeStatement Value)) :
    server.replay (s :: rest) store = server.replay rest next := by
  rw [Server.replay, executed]

/-- The induction is on the statements. -/
theorem Server.replay_append (server : Server Store Value Answer)
    (first rest : List (SafeStatement Value)) (store : Store) :
    server.replay (first ++ rest) store = (server.replay first store).bind (server.replay rest) := by
  induction first generalizing store with
  | nil => exact rfl
  | cons s first inductionHypothesis =>
      rw [List.cons_append]
      cases executed : server.execute s store with
      | error failure =>
          rw [Server.replay_of_error executed, Server.replay_of_error executed, Option.bind_none]
      | ok outcome =>
          rw [Server.replay_of_ok executed, Server.replay_of_ok executed]
          exact inductionHypothesis outcome.1

/-- A command is served, or its connection is broken before, meanwhile or
after. -/
theorem Connection.send_cases {Reply : Type} (server : Server Store Value Answer)
    (client : Connection Store) (interruption : Break)
    (served : Except Raised Reply × Connection Store) :
    (client.broken = false ∧ client.send server interruption served = served) ∨
    (client.broken = true ∧
      client.send server interruption served = (.error server.connectionLost, client)) ∨
    client.send server interruption served = (.error server.connectionLost, client.breaks) ∨
    (client.broken = false ∧ interruption = .after ∧
      client.send server interruption served = (.error server.connectionLost, served.2.breaks)) := by
  unfold Connection.send
  cases broken : client.broken with
  | true => exact Or.inr (Or.inl ⟨rfl, rfl⟩)
  | false =>
      cases interruption with
      | none => exact Or.inl ⟨rfl, rfl⟩
      | before => exact Or.inr (Or.inr (Or.inl rfl))
      | after => exact Or.inr (Or.inr (Or.inr ⟨rfl, rfl, rfl⟩))

/-! ## One statement -/

theorem Connection.query_of_aborted (s : SafeStatement Value)
    (aborted : client.transaction = .aborted) :
    client.query server s = (.error server.inFailedTransaction, client) := by
  unfold Connection.query
  rw [aborted]

theorem Connection.query_of_ok {s : SafeStatement Value} {working next : Store} {answer : Answer}
    (isOpen : client.transaction = .open working)
    (executed : server.execute s working = .ok (next, answer)) :
    client.query server s = (.ok answer, { client with transaction := .open next }) := by
  unfold Connection.query
  rw [isOpen]
  dsimp only
  rw [executed]

theorem Connection.query_of_error {s : SafeStatement Value} {working : Store} {failure : Raised}
    (isOpen : client.transaction = .open working)
    (executed : server.execute s working = .error failure) :
    client.query server s = (.error failure, { client with transaction := .aborted }) := by
  unfold Connection.query
  rw [isOpen]
  dsimp only
  rw [executed]

namespace Connection.Within

theorem of_holds {client : Connection Store} (committed : client.committed = start)
    (holds : client.broken = false)
    (transaction : client.transaction = .ofReplay (server.replay sent start)) :
    client.Within server start sent :=
  ⟨committed, Or.inr ⟨holds, transaction⟩⟩

theorem transaction_eq (within : client.Within server start sent)
    (holds : client.broken = false) :
    client.transaction = .ofReplay (server.replay sent start) := by
  rcases within.transaction with ⟨broken, -⟩ | ⟨-, transaction⟩
  · rw [holds] at broken
    cases broken
  · exact transaction

theorem idle_of_broken (within : client.Within server start sent)
    (broken : client.broken = true) : client.transaction = .idle := by
  rcases within.transaction with ⟨-, idle⟩ | ⟨holds, -⟩
  · exact idle
  · rw [broken] at holds
    cases holds

theorem breaks (within : client.Within server start sent) (more : List (SafeStatement Value)) :
    client.breaks.Within server start more :=
  ⟨within.committed, Or.inl ⟨rfl, rfl⟩⟩

/-- On a connection that holds, a statement takes the transaction one step
further. -/
theorem query (within : client.Within server start sent) (holds : client.broken = false)
    (s : SafeStatement Value) :
    (client.query server s).2.Within server start (sent ++ [s]) := by
  have transaction := within.transaction_eq holds
  have next := server.replay_append sent [s] start
  cases replayed : server.replay sent start with
  | none =>
      rw [replayed] at transaction next
      rw [query_of_aborted s transaction]
      exact of_holds within.committed holds (by rw [next]; exact transaction)
  | some working =>
      rw [replayed] at transaction next
      rw [Option.bind_some] at next
      cases executed : server.execute s working with
      | error failure =>
          rw [Server.replay_of_error executed] at next
          rw [query_of_error transaction executed]
          exact of_holds within.committed holds (by rw [next]; exact rfl)
      | ok outcome =>
          rw [Server.replay_of_ok executed] at next
          rw [query_of_ok transaction executed]
          exact of_holds within.committed holds (by rw [next]; exact rfl)

/-- The same for a connection that may break. -/
theorem txQuery (within : client.Within server start sent) (interruption : Break)
    (s : SafeStatement Value) :
    (client.txQuery server interruption s).2.Within server start (sent ++ [s]) := by
  unfold Connection.txQuery
  rcases client.send_cases server interruption (client.query server s) with
    ⟨holds, served⟩ | ⟨broken, refused⟩ | lost | ⟨holds, -, lost⟩
  · rw [served]
    exact within.query holds s
  · rw [refused]
    exact ⟨within.committed, Or.inl ⟨broken, within.idle_of_broken broken⟩⟩
  · rw [lost]
    exact within.breaks _
  · rw [lost]
    exact (within.query holds s).breaks _

/-- A statement that is answered has been executed after the ones before it. -/
theorem replay_of_answered (within : client.Within server start sent) {interruption : Break}
    {s : SafeStatement Value} {answer : Answer}
    (answered : (client.txQuery server interruption s).1 = .ok answer) :
    (server.replay (sent ++ [s]) start).isSome = true := by
  unfold Connection.txQuery at answered
  dsimp only at answered
  rcases client.send_cases server interruption (client.query server s) with
    ⟨holds, served⟩ | ⟨-, refused⟩ | lost | ⟨-, -, lost⟩
  · have transaction := within.transaction_eq holds
    have next := server.replay_append sent [s] start
    rw [served] at answered
    cases replayed : server.replay sent start with
    | none =>
        rw [replayed] at transaction
        rw [query_of_aborted s transaction] at answered
        cases answered
    | some working =>
        rw [replayed] at transaction next
        rw [Option.bind_some] at next
        cases executed : server.execute s working with
        | error failure =>
            rw [query_of_error transaction executed] at answered
            cases answered
        | ok outcome =>
            rw [Server.replay_of_ok executed] at next
            rw [next]
            exact rfl
  · rw [refused] at answered
    cases answered
  · rw [lost] at answered
    cases answered
  · rw [lost] at answered
    cases answered

end Connection.Within

/-! ## The callback -/

/-- The induction is on the callback. -/
theorem runCallback_within (breaks : Nat -> Break) (fn : Callback Value Answer Result)
    (within : client.Within server start sent) :
    let ran := runCallback server breaks fn client sent
    ran.client.Within server start ran.statements := by
  induction fn generalizing client sent with
  | returns result => exact within
  | throws failure => exact within
  | query s next inductionHypothesis =>
      exact inductionHypothesis _ (within.txQuery (breaks (sent.length + 1)) s)

/-- The statements that are sent are those of the callback.  The induction is on
the callback. -/
theorem returns_of_runCallback (server : Server Store Value Answer) (breaks : Nat -> Break)
    {fn : Callback Value Answer Result} {result : Result}
    (returned : (runCallback server breaks fn client sent).result = .ok result) :
    Exists fun rest : List (SafeStatement Value) =>
      (runCallback server breaks fn client sent).statements = sent ++ rest ∧
        fn.Returns rest result := by
  induction fn generalizing client sent with
  | returns other =>
      cases returned
      exact ⟨[], (List.append_nil sent).symm, .returns _⟩
  | throws failure => cases returned
  | query s next inductionHypothesis =>
      rcases inductionHypothesis _ returned with ⟨rest, statements, goesOn⟩
      refine ⟨s :: rest, ?_, .query _ goesOn⟩
      rw [← List.append_cons] at statements
      exact statements

/-- A callback that lets every error through returns only if all its statements
were executed. -/
theorem replay_of_returns (breaks : Nat -> Break) {fn : Callback Value Answer Result}
    (strict : fn.LetsThrough) (within : client.Within server start sent)
    (executed : (server.replay sent start).isSome = true) {result : Result}
    (returned : (runCallback server breaks fn client sent).result = .ok result) :
    (server.replay (runCallback server breaks fn client sent).statements start).isSome = true := by
  induction fn generalizing client sent with
  | returns result => exact executed
  | throws failure => cases returned
  | query s next inductionHypothesis =>
      have further := within.txQuery (breaks (sent.length + 1)) s
      unfold runCallback at returned ⊢
      dsimp only at returned ⊢
      cases answered : (client.txQuery server (breaks (sent.length + 1)) s).1 with
      | error failure =>
          rw [answered, strict.1 failure] at returned
          cases returned
      | ok answer =>
          rw [answered] at returned
          exact inductionHypothesis (.ok answer) (strict.2 answer) further
            (within.replay_of_answered answered) returned

/-! ## The end -/

/-- A rollback commits nothing, and leaves no transaction open. -/
theorem Connection.rollBack_settles (server : Server Store Value Answer)
    (client : Connection Store) (interruption : Break)
    (lost : client.broken = true -> client.transaction = .idle) :
    let left := (client.send server interruption client.rollback).2
    left.transaction = .idle ∧ left.committed = client.committed := by
  dsimp only
  rcases client.send_cases server interruption client.rollback with
    ⟨-, served⟩ | ⟨broken, refused⟩ | cut | ⟨-, -, cut⟩
  · rw [served]
    exact ⟨rfl, rfl⟩
  · rw [refused]
    exact ⟨lost broken, rfl⟩
  · rw [cut]
    exact ⟨rfl, rfl⟩
  · rw [cut]
    exact ⟨rfl, rfl⟩

theorem Connection.commit_of_aborted (aborted : client.transaction = .aborted) :
    client.commit server = (.ok (), { client with transaction := .idle }) := by
  unfold Connection.commit
  rw [aborted]

theorem Connection.commit_of_passed {working : Store} (isOpen : client.transaction = .open working)
    (passed : server.deferred working = none) :
    client.commit server = (.ok (), { client with committed := working, transaction := .idle }) := by
  unfold Connection.commit
  rw [isOpen]
  dsimp only
  rw [passed]

theorem Connection.commit_of_refused {working : Store} {failure : Raised}
    (isOpen : client.transaction = .open working)
    (refused : server.deferred working = some failure) :
    client.commit server = (.error failure, { client with transaction := .idle }) := by
  unfold Connection.commit
  rw [isOpen]
  dsimp only
  rw [refused]

/-- The server ends the transaction.  It commits what the statements do, or
nothing if one has failed, and an error means that nothing is committed. -/
theorem Connection.Within.commit (within : client.Within server start sent)
    (holds : client.broken = false) :
    (client.commit server).2.transaction = .idle ∧
    ((client.commit server).1 = .ok () ∧
      (client.commit server).2.committed = (server.replay sent start).getD start ∨
    (Exists fun failure : Raised => (client.commit server).1 = .error failure ∧
      (client.commit server).2.committed = start)) := by
  have transaction := within.transaction_eq holds
  cases replayed : server.replay sent start with
  | none =>
      rw [replayed] at transaction
      rw [commit_of_aborted transaction]
      exact ⟨rfl, Or.inl ⟨rfl, within.committed⟩⟩
  | some working =>
      rw [replayed] at transaction
      cases checked : server.deferred working with
      | none =>
          rw [commit_of_passed transaction checked]
          exact ⟨rfl, Or.inl ⟨rfl, rfl⟩⟩
      | some failure =>
          rw [commit_of_refused transaction checked]
          exact ⟨rfl, Or.inr ⟨failure, rfl, within.committed⟩⟩

/-- What a run of `withTransaction` leaves behind.  `answerLost` says that the
connection broke between the execution of the `COMMIT` and its answer. -/
structure Ended.Settled (server : Server Store Value Answer) (fn : Callback Value Answer Result)
    (start : Store) (answerLost : Prop) (ended : Ended Store Value Result) : Prop where
  /-- The client goes back to the pool without an open transaction. -/
  idle : ended.client.transaction = .idle
  /-- All that the callback does is committed, or nothing. -/
  whole : ended.client.committed = start ∨
    server.replay ended.statements start = some ended.client.committed ∧
      Exists fun result : Result => fn.Returns ended.statements result
  /-- A run that returns has committed its statements, unless one has failed. -/
  returned : forall result : Result, ended.result = .ok result ->
    fn.Returns ended.statements result ∧
      ended.client.committed = (server.replay ended.statements start).getD start
  /-- A run that throws has committed nothing, but for an answer that is lost. -/
  threw : forall failure : Raised, ended.result = .error failure ->
    ended.client.committed = start ∨ failure = server.connectionLost ∧ answerLost

theorem whole_of_getD {after : Store} {replayed : Option Store}
    (committed : after = replayed.getD start) : after = start ∨ replayed = some after := by
  cases replayed with
  | none => exact Or.inl committed
  | some working => exact Or.inr (congrArg some committed.symm)

/-- A run that ends in the `catch` block. -/
theorem settled_of_rollBack {fn : Callback Value Answer Result} {answerLost : Prop}
    (interruption : Break) (failure : Raised)
    (lost : client.broken = true -> client.transaction = .idle)
    (whole : client.committed = start ∨ server.replay sent start = some client.committed ∧
      Exists fun result : Result => fn.Returns sent result)
    (cause : client.committed = start ∨ failure = server.connectionLost ∧ answerLost) :
    (rollBack server interruption failure client sent : Ended Store Value Result).Settled server
      fn start answerLost := by
  have rolledBack := client.rollBack_settles server interruption lost
  refine ⟨rolledBack.1, ?_, ?_, ?_⟩
  · unfold rollBack
    dsimp only
    rw [rolledBack.2]
    exact whole
  · intro result returned
    cases returned
  · intro other threw
    unfold rollBack
    dsimp only
    rw [rolledBack.2]
    cases threw
    exact cause

theorem endTransaction_statements (server : Server Store Value Answer) (breaks : Nat -> Break)
    (ran : Ended Store Value Result) :
    (endTransaction server breaks ran).statements = ran.statements := by
  unfold endTransaction
  split
  · exact rfl
  · dsimp only
    split
    · exact rfl
    · exact rfl

theorem endTransaction_of_error {ran : Ended Store Value Result} {failure : Raised}
    (server : Server Store Value Answer) (breaks : Nat -> Break)
    (threw : ran.result = .error failure) : endTransaction server breaks ran =
      rollBack server (breaks (ran.statements.length + 1)) failure ran.client ran.statements := by
  unfold endTransaction
  rw [threw]

/-- The end of a run whose callback has returned. -/
theorem settled_of_returned {fn : Callback Value Answer Result} (breaks : Nat -> Break)
    {ran : Ended Store Value Result} (within : ran.client.Within server start ran.statements)
    {result : Result} (returned : ran.result = .ok result)
    (complete : fn.Returns ran.statements result) :
    (endTransaction server breaks ran).Settled server fn start
      (breaks (ran.statements.length + 1) = .after) := by
  unfold endTransaction
  rw [returned]
  dsimp only
  rcases ran.client.send_cases server (breaks (ran.statements.length + 1))
    (ran.client.commit server) with
    ⟨holds, served⟩ | ⟨broken, refused⟩ | cut | ⟨holds, lost, cut⟩
  · have ended := within.commit holds
    rw [served]
    rcases ended.2 with ⟨ok, committed⟩ | ⟨failure, failed, committed⟩
    · rw [ok]
      refine ⟨ended.1, ?_, ?_, fun _ threw => nomatch threw⟩
      · exact (whole_of_getD committed).imp_right (fun replayed => ⟨replayed, result, complete⟩)
      · intro other same
        cases same
        exact ⟨complete, committed⟩
    · rw [failed]
      exact settled_of_rollBack _ failure (fun _ => ended.1) (Or.inl committed) (Or.inl committed)
  · rw [refused]
    exact settled_of_rollBack _ _ (fun _ => within.idle_of_broken broken)
      (Or.inl within.committed) (Or.inl within.committed)
  · rw [cut]
    exact settled_of_rollBack _ _ (fun _ => rfl) (Or.inl within.committed)
      (Or.inl within.committed)
  · have ended := within.commit holds
    rw [cut]
    refine settled_of_rollBack _ _ (fun _ => rfl) ?_ (Or.inr ⟨rfl, lost⟩)
    rcases ended.2 with ⟨-, committed⟩ | ⟨failure, -, committed⟩
    · exact (whole_of_getD committed).imp_right (fun replayed => ⟨replayed, result, complete⟩)
    · exact Or.inl committed

/-- The end of a run, from the client inside its transaction. -/
theorem endTransaction_settles {fn : Callback Value Answer Result} (breaks : Nat -> Break)
    {ran : Ended Store Value Result} (within : ran.client.Within server start ran.statements)
    (complete : forall result : Result, ran.result = .ok result ->
      fn.Returns ran.statements result) :
    (endTransaction server breaks ran).Settled server fn start
      (breaks ((endTransaction server breaks ran).statements.length + 1) = .after) := by
  rw [endTransaction_statements]
  cases outcome : ran.result with
  | error failure =>
      rw [endTransaction_of_error server breaks outcome]
      exact settled_of_rollBack _ failure within.idle_of_broken (Or.inl within.committed)
        (Or.inl within.committed)
  | ok result => exact settled_of_returned breaks within outcome (complete result outcome)

/-- The client after `BEGIN`. -/
theorem begin_within (server : Server Store Value Answer) (interruption : Break)
    (ready : client.transaction = .idle) :
    let begun := client.send server interruption client.begin
    (begun.1 = .ok () ∧ begun.2.Within server client.committed []) ∨
    (Exists fun failure : Raised => begun.1 = .error failure ∧ begun.2.transaction = .idle ∧
      begun.2.committed = client.committed) := by
  dsimp only
  have opened : client.begin = (.ok (), { client with transaction := .open client.committed }) := by
    unfold Connection.begin
    rw [ready]
  rcases client.send_cases server interruption client.begin with
    ⟨holds, served⟩ | ⟨-, refused⟩ | cut | ⟨-, -, cut⟩
  · rw [served, opened]
    exact Or.inl ⟨rfl, rfl, Or.inr ⟨holds, rfl⟩⟩
  · rw [refused]
    exact Or.inr ⟨_, rfl, ready, rfl⟩
  · rw [cut]
    exact Or.inr ⟨_, rfl, rfl, rfl⟩
  · rw [cut, opened]
    exact Or.inr ⟨_, rfl, rfl, rfl⟩

theorem withTransaction_settles (server : Server Store Value Answer) (breaks : Nat -> Break)
    (fn : Callback Value Answer Result) (ready : client.transaction = .idle) :
    let ended := withTransaction server breaks fn client
    ended.Settled server fn client.committed (breaks (ended.statements.length + 1) = .after) := by
  dsimp only
  unfold withTransaction
  rcases begin_within server (breaks 0) ready with
    ⟨ok, within⟩ | ⟨failure, failed, idle, committed⟩
  · dsimp only at ok ⊢
    rw [ok]
    refine endTransaction_settles breaks (runCallback_within breaks fn within) ?_
    intro result returned
    rcases returns_of_runCallback server breaks returned with ⟨rest, statements, complete⟩
    rw [statements, List.nil_append]
    exact complete
  · dsimp only at failed ⊢
    rw [failed]
    exact settled_of_rollBack (breaks 1) failure (fun _ => idle) (Or.inl committed)
      (Or.inl committed)

/-- A run that returns has got to its commit. -/
theorem replay_of_withTransaction_ok (server : Server Store Value Answer) (breaks : Nat -> Break)
    {fn : Callback Value Answer Result} (strict : fn.LetsThrough)
    (ready : client.transaction = .idle) {result : Result}
    (returned : (withTransaction server breaks fn client).result = .ok result) :
    (server.replay (withTransaction server breaks fn client).statements
      client.committed).isSome = true := by
  unfold withTransaction at returned ⊢
  rcases begin_within server (breaks 0) ready with ⟨ok, within⟩ | ⟨failure, failed, -, -⟩
  · dsimp only at ok returned ⊢
    rw [ok] at returned ⊢
    dsimp only at returned ⊢
    rw [endTransaction_statements]
    cases outcome : (runCallback server breaks fn
        (client.send server (breaks 0) client.begin).2 []).result with
    | error failure =>
        rw [endTransaction_of_error server breaks outcome] at returned
        cases returned
    | ok result => exact replay_of_returns breaks strict within rfl outcome
  · dsimp only at failed returned
    rw [failed] at returned
    cases returned

/-- `withTransaction` commits all that its callback does, or nothing, whatever
the callback makes of the answers and wherever the connection breaks.  It leaves
no transaction open on the client it gives back.  If it throws, nothing is
committed, unless the answer to an executed `COMMIT` was lost.

If it returns, everything is committed, provided that the callback lets the
error of a statement through.  A callback that catches one may still return:
nothing is committed then, and nobody is told. -/
theorem transactions_are_all_or_nothing (server : Server Store Value Answer)
    (breaks : Nat -> Break) (fn : Callback Value Answer Result) (client : Connection Store)
    (ready : client.transaction = .idle) :
    let ended := withTransaction server breaks fn client
    ended.Settled server fn client.committed (breaks (ended.statements.length + 1) = .after) ∧
    (fn.LetsThrough -> forall result : Result, ended.result = .ok result ->
      server.replay ended.statements client.committed = some ended.client.committed) := by
  intro ended
  have settled := withTransaction_settles server breaks fn ready
  refine ⟨settled, ?_⟩
  intro strict result returned
  have executed := replay_of_withTransaction_ok server breaks strict ready returned
  have committed := (settled.returned result returned).2
  rcases Option.isSome_iff_exists.mp executed with ⟨working, replayed⟩
  rw [replayed, Option.getD_some] at committed
  rw [committed]
  exact replayed

/-- A server that keeps the statements it executes, and answers with their
number. -/
def journalServer : Server (List String) Unit Nat where
  execute s journal := .ok (journal ++ [s.text], journal.length + 1)
  deferred _ := none
  inFailedTransaction := .driver "current transaction is aborted" (some "25P02")
  connectionLost := .driver "Connection terminated unexpectedly" none

/-- Two statements, whose errors are let through. -/
def twoUpdates : Callback Unit Nat Nat :=
  .query ⟨"UPDATE job", []⟩ fun
    | .error failure => .throws failure
    | .ok _ => .query ⟨"UPDATE queue_config", []⟩ fun
      | .error failure => .throws failure
      | .ok count => .returns count

/-- Three runs: nothing breaks, the connection breaks before the second
statement is executed, and the answer to `COMMIT` is lost. -/
theorem two_updates_are_committed :
    (withTransaction journalServer (fun _ => .none) twoUpdates
      ⟨[], .idle, false⟩).client.committed = ["UPDATE job", "UPDATE queue_config"] ∧
    (withTransaction journalServer (fun n => if n = 2 then .before else .none) twoUpdates
      ⟨[], .idle, false⟩).client.committed = [] ∧
    (withTransaction journalServer (fun n => if n = 3 then .after else .none) twoUpdates
      ⟨[], .idle, false⟩).client.committed = ["UPDATE job", "UPDATE queue_config"] := by
  have strict : twoUpdates.LetsThrough := ⟨fun _ => rfl, fun _ => ⟨fun _ => rfl, fun _ => trivial⟩⟩
  refine ⟨?_, ?_, ?_⟩
  · have settled := transactions_are_all_or_nothing journalServer (fun _ => .none) twoUpdates
      ⟨[], .idle, false⟩ rfl
    exact (Option.some.inj (settled.2 strict 2 rfl)).symm
  · have settled := transactions_are_all_or_nothing journalServer
      (fun n => if n = 2 then .before else .none) twoUpdates ⟨[], .idle, false⟩ rfl
    rcases settled.1.threw _ rfl with nothing | ⟨-, lost⟩
    · exact nothing
    · cases lost
  · have settled := transactions_are_all_or_nothing journalServer
      (fun n => if n = 3 then .after else .none) twoUpdates ⟨[], .idle, false⟩ rfl
    rcases settled.1.whole with nothing | ⟨replayed, -⟩
    · cases nothing
    · exact (Option.some.inj replayed).symm

/-! ## Migrations -/

theorem Migration.applying_letsThrough (migration : Migration) :
    (migration.applying : Callback (Nat ⊕ String) Answer Unit).LetsThrough :=
  ⟨fun _ => rfl, fun _ => ⟨fun _ => rfl, fun _ => trivial⟩⟩

theorem Migration.statements_of_returns {migration : Migration}
    {statements : List (SafeStatement (Nat ⊕ String))} {result : Unit}
    (returned : (migration.applying : Callback (Nat ⊕ String) Answer Unit).Returns statements
      result) : statements = [⟨migration.sql, []⟩, migration.bookkeeping] := by
  cases returned with
  | query first goesOn =>
      cases first with
      | error failure => cases goesOn
      | ok answer =>
          cases goesOn with
          | query second goesOn =>
              cases second with
              | error failure => cases goesOn
              | ok answer =>
                  cases goesOn
                  exact rfl

/-- A migration and its bookkeeping row are committed together or not at all,
and together if `migrateUp` goes on to the next one. -/
theorem migration_is_applied_whole (server : Server Store (Nat ⊕ String) Answer)
    (breaks : Nat -> Break) (migration : Migration) (ready : client.transaction = .idle) :
    let ended := withTransaction server breaks migration.applying client
    let whole := server.replay [⟨migration.sql, []⟩, migration.bookkeeping] client.committed
    (ended.client.committed = client.committed ∨ whole = some ended.client.committed) ∧
    (ended.result = .ok () -> whole = some ended.client.committed) := by
  intro ended whole
  have settled := withTransaction_settles server breaks migration.applying ready
  constructor
  · rcases settled.whole with same | ⟨replayed, result, complete⟩
    · exact Or.inl same
    · rw [Migration.statements_of_returns complete] at replayed
      exact Or.inr replayed
  · intro returned
    have executed := replay_of_withTransaction_ok server breaks migration.applying_letsThrough ready
      returned
    have last := settled.returned () returned
    have both := Migration.statements_of_returns last.1
    have committed := last.2
    rw [both] at committed executed
    rcases Option.isSome_iff_exists.mp executed with ⟨working, replayed⟩
    rw [replayed, Option.getD_some] at committed
    exact replayed.trans (congrArg some committed.symm)

end Sending

end PgJobQ
