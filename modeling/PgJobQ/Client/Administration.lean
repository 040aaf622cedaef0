import PgJobQ.Lifecycle.StateMachine
import PgJobQ.Statements.Effects

/-!
# Operations on jobs that are named by id

Ids are `bigint` columns and travel as decimal strings.  The schema of the
server admits every nonempty string of digits, of any length and with leading
zeros; the database refuses one that does not fit the column, and reports an id
in canonical form.

An operation returns the database it leaves with its result or the error it
throws.  `Db.query` wraps the errors of the database except unique violations,
which it passes on as they are.
-/

namespace PgJobQ

/-- `/^\d+$/`. -/
def numericText (text : String) : Bool :=
  !text.toList.isEmpty && text.toList.all Char.isDigit

/-- A string the `id` schema accepts. -/
@[ext] structure NumericId where
  text : String
  numeric : numericText text = true
  deriving DecidableEq, Repr

/-- The largest `bigint`. -/
def bigintMax : Nat := 9223372036854775807

namespace NumericId

/-- The number the database reads. -/
def value (id : NumericId) : Nat := Nat.ofDigitChars 10 id.text.toList 0

def fitsBigint (id : NumericId) : Bool := id.value ≤ bigintMax

/-- The string is what the database prints for the number. -/
def Canonical (id : NumericId) : Prop := id.text = Nat.repr id.value

instance (id : NumericId) : Decidable id.Canonical :=
  inferInstanceAs (Decidable (id.text = Nat.repr id.value))

/-- Reading what has been printed gives the number back. -/
theorem value_of_repr {id : NumericId} {number : Nat} (printed : id.text = Nat.repr number) :
    id.value = number := by
  unfold value
  rw [printed, Nat.toList_repr]
  exact Nat.ofDigitChars_ten_toDigits

theorem canonical_of_repr {id : NumericId} {number : Nat} (printed : id.text = Nat.repr number) :
    id.Canonical := by
  rw [Canonical, value_of_repr printed]
  exact printed

/-- A number has one canonical string. -/
theorem Canonical.eq_of_value {first second : NumericId} (firstCanonical : first.Canonical)
    (secondCanonical : second.Canonical) (same : first.value = second.value) : first = second := by
  apply NumericId.ext
  rw [firstCanonical, secondCanonical, same]

end NumericId

inductive AdminError where
  | jobNotFound (id : String)
  | invalidTransition (fromState target : JobState) (permitted : List JobState)
  | conflict (message : String) (id : String) (state : JobState)
  | idOutOfRange
  | database (error : DbError)
  deriving DecidableEq, Repr

/-- The error of the driver, which `wrapDbError` does not wrap. -/
def AdminError.rawUniqueViolation : AdminError -> Bool
  | database (.uniqueViolation _) => true
  | _ => false

structure CancelResult where
  state : JobState
  acknowledged : Bool
  deriving DecidableEq, Repr

structure BulkReplay where
  replayed : List String
  skipped : List String
  deriving DecidableEq, Repr

namespace Client

/-- `Db.query` of a statement about these ids. -/
def query (ids : List NumericId) (statement : Statement) (now : Timestamp) (db : Database) :
    Except AdminError Reply :=
  if ids.all NumericId.fitsBigint then
    match statement.exec now db with
    | .ok reply => .ok reply
    | .error error => .error (.database error)
  else .error .idOutOfRange

def getJob (id : NumericId) (db : Database) : Except AdminError JobRow :=
  if id.fitsBigint then
    match db.find id.value with
    | some job => .ok job
    | none => .error (.jobNotFound id.text)
  else .error .idOutOfRange

/-- The job is gone or in another state than the statement demands. -/
def refuse (id : NumericId) (db : Database) (reason : JobRow -> AdminError) : AdminError :=
  match getJob id db with
  | .ok current => reason current
  | .error error => error

/-- An available job is cancelled, a running one is asked to stop. -/
def cancel (id : NumericId) (now later : Timestamp) (db : Database) :
    Database × Except AdminError CancelResult :=
  match query [id] (.cancelAvailableJob id.value) now db with
  | .error error => (db, .error error)
  | .ok cancelled =>
      if cancelled.rows.isEmpty then
        match query [id] (.requestCancelRunningJob id.value) later cancelled.db with
        | .error error => (cancelled.db, .error error)
        | .ok requested =>
            if requested.rows.isEmpty then
              (requested.db, .error (refuse id requested.db (fun current =>
                .invalidTransition current.state .cancelled (permittedTargets current.state))))
            else (requested.db, .ok ⟨.running, false⟩)
      else (cancelled.db, .ok ⟨.cancelled, true⟩)

def retryNow (id : NumericId) (now : Timestamp) (db : Database) :
    Database × Except AdminError JobRow :=
  match query [id] (.retryJobNow id.value) now db with
  | .error error => (db, .error error)
  | .ok reply =>
      if reply.rows.isEmpty then
        (reply.db, .error (refuse id reply.db (fun current =>
          .conflict ("Cannot retry job " ++ id.text ++ " in state '" ++ current.state.text ++
            "'. Only 'available' jobs can be " ++
            "advanced; use replay for a dead-lettered job.") id.text current.state)))
      else (reply.db, getJob id reply.db)

def replay (id : NumericId) (now : Timestamp) (db : Database) :
    Database × Except AdminError JobRow :=
  match query [id] (.replayDeadJob id.value) now db with
  | .error error => (db, .error error)
  | .ok reply =>
      if reply.rows.isEmpty then
        (reply.db, .error (refuse id reply.db (fun current =>
          .conflict ("Cannot replay job " ++ id.text ++ " in state '" ++ current.state.text ++
            "'. Only dead-lettered jobs can be replayed.") id.text current.state)))
      else (reply.db, getJob id reply.db)

def replayMany (ids : List NumericId) (now : Timestamp) (db : Database) :
    Database × Except AdminError BulkReplay :=
  if ids = [] then (db, .ok ⟨[], []⟩)
  else
    match query ids (.replayDeadJobs (ids.map NumericId.value)) now db with
    | .error error => (db, .error error)
    | .ok reply =>
        let replayed := reply.rows.map (fun row => Nat.repr row.id)
        (reply.db,
          .ok ⟨replayed, (ids.map NumericId.text).filter (fun id => !replayed.contains id)⟩)

end Client

end PgJobQ
