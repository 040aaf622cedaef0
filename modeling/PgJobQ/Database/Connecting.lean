import Mathlib.Data.List.Range
import PgJobQ.Client.BuildRow
import PgJobQ.Worker.Backoff

/-!
# Waiting for the database

`waitForDatabase` pings until the database answers, and sleeps between two pings
for a random part of a delay that doubles up to a ceiling.  It gives up at once
on an error that waiting will not mend.

An error counts as transient by its code, if it has one, and by its message only
if it has none.  The errors of a socket have a code, which is the word the
message is searched for, and no code of the list is one of theirs.
-/

namespace PgJobQ

/-! ## Errors -/

/-- What may be thrown in `db.ts`: an error of the driver, a `DatabaseError`, or
something that is no error.  `code` is there if it is a string. -/
inductive Raised where
  | driver (message : String) (code : Option String)
  | database (message : String) (cause : Option Raised)
  | value (text : String) (code : Option String)

namespace Raised

def pgErrorCode : Raised -> Option String
  | driver _ code => code
  | database _ _ => some "DATABASE_ERROR"
  | value _ code => code

/-- `SERIALIZATION_FAILURE`, `DEADLOCK_DETECTED`, `ADMIN_SHUTDOWN` and
`CANNOT_CONNECT_NOW`. -/
def transientCodes : List String := ["40001", "40P01", "57P01", "57P03"]

/-- The alternatives of the pattern. -/
def connectivityWords : List String :=
  ["ECONNREFUSED", "ECONNRESET", "ETIMEDOUT", "EPIPE", "EHOSTUNREACH", "ENOTFOUND",
    "terminating connection"]

/-- One of the words occurs in the message, in whatever case. -/
def mentionsConnectivity (message : String) : Bool :=
  connectivityWords.any (fun word => (message.toList.map Char.toUpper).tails.any
    (fun rest => (word.toList.map Char.toUpper).isPrefixOf rest))

def isTransientDbError (e : Raised) : Bool :=
  match e.pgErrorCode with
  | some code => transientCodes.contains code
  | none =>
      match e with
      | driver message _ => mentionsConnectivity message
      | database message _ => mentionsConnectivity message
      | value _ _ => false

/-- `trim` removes what JavaScript counts as white space or a line end. -/
def isBlank (char : Char) : Bool :=
  [0x9, 0xA, 0xB, 0xC, 0xD, 0x20, 0xA0, 0x1680, 0x2028, 0x2029, 0x202F, 0x205F, 0x3000,
    0xFEFF].contains char.toNat || (0x2000 ≤ char.toNat && char.toNat ≤ 0x200A)

def firstLine (text : String) : String :=
  let line := (text.toList.dropWhile isBlank).reverse.dropWhile isBlank |>.reverse.takeWhile
    (fun char => char != '\n')
  if 120 < utf16Length (String.ofList line) then String.ofList (line.take 117) ++ "..."
  else String.ofList line

def wrapDbError (e : Raised) (text : String) : Raised :=
  if e.pgErrorCode = some "23505" then e
  else match e with
    | driver message _ => database (message ++ " [statement: " ++ firstLine text ++ "]") (some e)
    | database message _ => database (message ++ " [statement: " ++ firstLine text ++ "]") (some e)
    | value _ _ => e

def unwrapCause : Raised -> Raised
  | database _ (some cause) => cause
  | e => e

def errorMessage (e : Raised) : String :=
  match e with
  | value text _ => text
  | driver message _ =>
      match e.unwrapCause.pgErrorCode with
      | some code => message ++ " (pg code " ++ code ++ ")"
      | none => message
  | database message _ =>
      match e.unwrapCause.pgErrorCode with
      | some code => message ++ " (pg code " ++ code ++ ")"
      | none => message

end Raised

/-! ## The loop -/

structure WaitOptions where
  maxAttempts : Nat
  initialMs : Nat
  maxMs : Nat

/-- The pings of a run: whether the pool is closed, what its queries raise, by
the number of the attempt, and the random numbers drawn. -/
structure Pings where
  closed : Bool
  raised : Nat -> Option Raised
  draws : Nat -> RandomDraw

/-- What a run of `waitForDatabase` does. -/
structure Waited where
  result : Except Raised Unit
  pings : Nat
  sleeps : List Nat

/-- `db.ping()`. -/
def Pings.ping (pings : Pings) (attempt : Nat) : Option Raised :=
  if pings.closed then some (.database "Database pool is closed" none)
  else (pings.raised attempt).map (fun e => e.wrapDbError "SELECT 1")

namespace WaitOptions

def delay (opts : WaitOptions) (attempt : Nat) : Nat :=
  min opts.maxMs (opts.initialMs * 2 ^ (attempt - 1))

/-- `Math.round(Math.random() * delay)`. -/
def jittered (opts : WaitOptions) (draws : Nat -> RandomDraw) (attempt : Nat) : Nat :=
  ⌊(draws attempt).value * opts.delay attempt + 1 / 2⌋.toNat

def cannotConnect (e : Raised) : Raised :=
  .database ("Cannot connect to the database: " ++ e.errorMessage ++ ". This is not a transient " ++
    "connectivity error, so retrying will not help. Check DATABASE_URL, credentials, " ++
    "and that the target database exists.") (some e)

/-- `undefined` is what is left where no ping was made. -/
def unreachable (opts : WaitOptions) (lastError : Option Raised) : Raised :=
  .database ("Database unreachable after " ++ toString opts.maxAttempts ++ " attempts: " ++
    (lastError.map Raised.errorMessage).getD "undefined") lastError

/-- The loop with the attempts that are left, this one included. -/
def waitLoop (opts : WaitOptions) (pings : Pings) : Nat -> Nat -> Option Raised -> Waited
  | 0, _, lastError => ⟨.error (opts.unreachable lastError), 0, []⟩
  | remaining + 1, attempt, _ =>
      match pings.ping attempt with
      | none => ⟨.ok (), 1, []⟩
      | some e =>
          if !e.unwrapCause.isTransientDbError then ⟨.error (cannotConnect e), 1, []⟩
          else if attempt = opts.maxAttempts then ⟨.error (opts.unreachable (some e)), 1, []⟩
          else
            let rest := waitLoop opts pings remaining (attempt + 1) (some e)
            ⟨rest.result, rest.pings + 1, opts.jittered pings.draws attempt :: rest.sleeps⟩

end WaitOptions

def waitForDatabase (opts : WaitOptions) (pings : Pings) : Waited :=
  opts.waitLoop pings opts.maxAttempts 1 none

/-! ## The ping that decides -/

/-- The ping fails for a reason that may pass. -/
def Pings.transient (pings : Pings) (attempt : Nat) : Bool :=
  match pings.ping attempt with
  | none => false
  | some e => e.unwrapCause.isTransientDbError

/-- What a ping that decides leads to. -/
def Pings.verdict (pings : Pings) (attempt : Nat) : Except Raised Unit :=
  match pings.ping attempt with
  | none => .ok ()
  | some e => .error (WaitOptions.cannotConnect e)

/-- The first of so many pings that succeeds or fails for good. -/
def Pings.decisive (pings : Pings) (first count : Nat) : Option Nat :=
  (List.range' first count).find? (fun attempt => !pings.transient attempt)

namespace Pings

variable {pings : Pings} {attempt first count decided : Nat}

theorem decisive_of_transient (transient : pings.transient first = true) :
    pings.decisive first (count + 1) = pings.decisive (first + 1) count := by
  unfold decisive
  rw [List.range'_succ, List.find?_cons, transient]
  exact rfl

theorem decisive_of_not_transient (decides : pings.transient first = false) :
    pings.decisive first (count + 1) = some first := by
  unfold decisive
  rw [List.range'_succ, List.find?_cons, decides]
  exact rfl

theorem decisive_bounds (found : pings.decisive first count = some decided) :
    first ≤ decided ∧ decided < first + count := by
  have member := List.mem_of_find?_eq_some found
  rw [List.mem_range'_1] at member
  exact member

theorem decisive_decides (found : pings.decisive first count = some decided) :
    pings.transient decided = false := by
  have decides := List.find?_some found
  simpa using decides

/-- The pings before the deciding one fail for reasons that may pass.  The
induction is on the number of pings. -/
theorem transient_before_decisive (found : pings.decisive first count = some decided)
    (after : first ≤ attempt) (before : attempt < decided) : pings.transient attempt = true := by
  induction count generalizing first with
  | zero => cases found
  | succ count inductionHypothesis =>
      cases firstTransient : pings.transient first with
      | false =>
          rw [decisive_of_not_transient firstTransient] at found
          cases found
          omega
      | true =>
          rw [decisive_of_transient firstTransient] at found
          rcases Nat.eq_or_lt_of_le after with same | later
          · exact same ▸ firstTransient
          · exact inductionHypothesis found later

theorem transient_of_undecided (undecided : pings.decisive first count = none)
    (after : first ≤ attempt) (before : attempt < first + count) :
    pings.transient attempt = true := by
  have all := List.find?_eq_none.mp undecided attempt (List.mem_range'_1.mpr ⟨after, before⟩)
  simpa using all

theorem not_transient_of_ok (answered : pings.ping attempt = none) :
    pings.transient attempt = false := by
  unfold transient
  rw [answered]

theorem transient_of_failed {e : Raised} (failed : pings.ping attempt = some e) :
    pings.transient attempt = e.unwrapCause.isTransientDbError := by
  unfold transient
  rw [failed]

end Pings

/-! ## The loop in closed form -/

namespace WaitOptions

/-- The sleeps after so many pings from the first on. -/
def sleepsAfter (opts : WaitOptions) (pings : Pings) (first count : Nat) : List Nat :=
  (List.range' first count).map (opts.jittered pings.draws)

/-- The run as its deciding ping has it, or as it ends without one. -/
def waited (opts : WaitOptions) (pings : Pings) (remaining attempt : Nat)
    (lastError : Option Raised) : Waited :=
  match pings.decisive attempt remaining with
  | some decided => ⟨pings.verdict decided, decided - attempt + 1,
      opts.sleepsAfter pings attempt (decided - attempt)⟩
  | none => ⟨.error (opts.unreachable
        (if remaining = 0 then lastError else pings.ping opts.maxAttempts)), remaining,
      opts.sleepsAfter pings attempt (remaining - 1)⟩

variable {opts : WaitOptions} {pings : Pings} {attempt remaining : Nat}

theorem sleepsAfter_succ (count : Nat) : opts.sleepsAfter pings attempt (count + 1) =
    opts.jittered pings.draws attempt :: opts.sleepsAfter pings (attempt + 1) count := by
  unfold sleepsAfter
  rw [List.range'_succ, List.map_cons]

theorem sleepsAfter_length (count : Nat) :
    (opts.sleepsAfter pings attempt count).length = count := by
  unfold sleepsAfter
  rw [List.length_map, List.length_range']

/-- A ping that decides ends the run. -/
theorem waited_of_not_transient (decides : pings.transient attempt = false)
    (lastError : Option Raised) :
    opts.waited pings (remaining + 1) attempt lastError = ⟨pings.verdict attempt, 1, []⟩ := by
  unfold waited
  rw [Pings.decisive_of_not_transient decides]
  dsimp only
  rw [Nat.sub_self]
  exact rfl

/-- A ping that does not decide is followed by a sleep and by the rest. -/
theorem waited_of_transient {e : Raised} (transient : pings.transient attempt = true)
    (lastError : Option Raised) :
    opts.waited pings (remaining + 2) attempt lastError =
      let rest := opts.waited pings (remaining + 1) (attempt + 1) (some e)
      ⟨rest.result, rest.pings + 1, opts.jittered pings.draws attempt :: rest.sleeps⟩ := by
  unfold waited
  rw [Pings.decisive_of_transient transient]
  cases found : pings.decisive (attempt + 1) (remaining + 1) with
  | none =>
      dsimp only
      rw [if_neg (Nat.succ_ne_zero _), if_neg (Nat.succ_ne_zero _)]
      have sleeps : remaining + 2 - 1 = remaining + 1 - 1 + 1 := by omega
      rw [sleeps, sleepsAfter_succ]
  | some decided =>
      have bounds := Pings.decisive_bounds found
      have distance : decided - attempt = decided - (attempt + 1) + 1 := by omega
      dsimp only
      rw [distance, sleepsAfter_succ]

/-- The induction is on the attempts that are left. -/
theorem waitLoop_eq (lastError : Option Raised)
    (fits : attempt + remaining = opts.maxAttempts + 1) :
    opts.waitLoop pings remaining attempt lastError =
      opts.waited pings remaining attempt lastError := by
  induction remaining generalizing attempt lastError with
  | zero => exact rfl
  | succ remaining inductionHypothesis =>
      unfold waitLoop
      cases answered : pings.ping attempt with
      | none =>
          rw [waited_of_not_transient (Pings.not_transient_of_ok answered)]
          unfold Pings.verdict
          rw [answered]
      | some e =>
          dsimp only
          cases transient : e.unwrapCause.isTransientDbError with
          | false =>
              rw [← Pings.transient_of_failed answered] at transient
              rw [waited_of_not_transient transient]
              unfold Pings.verdict
              rw [answered]
              exact rfl
          | true =>
              rw [← Pings.transient_of_failed answered] at transient
              rw [if_neg (by simp)]
              cases remaining with
              | zero =>
                  have last : attempt = opts.maxAttempts := by omega
                  rw [if_pos last]
                  unfold waited
                  rw [Pings.decisive_of_transient transient, ← last, answered]
                  exact rfl
              | succ remaining =>
                  have notLast : attempt ≠ opts.maxAttempts := by omega
                  rw [if_neg notLast, inductionHypothesis (some e) (by omega),
                    waited_of_transient transient]

theorem waitForDatabase_eq (opts : WaitOptions) (pings : Pings) :
    waitForDatabase opts pings = opts.waited pings opts.maxAttempts 1 none :=
  waitLoop_eq none (Nat.add_comm 1 opts.maxAttempts)

/-! ## Sleeps -/

/-- A part of the delay, rounded, is not above the delay. -/
theorem jittered_le (opts : WaitOptions) (draws : Nat -> RandomDraw) (attempt : Nat) :
    opts.jittered draws attempt ≤ opts.delay attempt := by
  unfold jittered
  have part : (draws attempt).value * opts.delay attempt ≤ opts.delay attempt :=
    mul_le_of_le_one_left (Nat.cast_nonneg _) (le_of_lt (draws attempt).belowOne)
  have below : ⌊(draws attempt).value * opts.delay attempt + 1 / 2⌋ < (opts.delay attempt : Int) + 1 := by
    rw [Int.floor_lt]
    push_cast
    linarith
  omega

theorem getElem_sleepsAfter_le (count index : Nat)
    (inRange : index < (opts.sleepsAfter pings 1 count).length) :
    (opts.sleepsAfter pings 1 count)[index] ≤ min opts.maxMs (opts.initialMs * 2 ^ index) := by
  have slept : (opts.sleepsAfter pings 1 count)[index] =
      opts.jittered pings.draws (1 + index) := by
    simp [sleepsAfter, List.getElem_range']
  have bound := opts.jittered_le pings.draws (1 + index)
  rw [slept]
  unfold delay at bound
  rw [Nat.add_sub_cancel_left] at bound
  exact bound

/-! ## Runs -/

/-- How a run ends: with the ping that decides, or with the last one. -/
theorem waitForDatabase_ends (opts : WaitOptions) (pings : Pings) :
    (Exists fun decided : Nat => pings.decisive 1 opts.maxAttempts = some decided ∧
      waitForDatabase opts pings =
        ⟨pings.verdict decided, decided, opts.sleepsAfter pings 1 (decided - 1)⟩) ∨
    (pings.decisive 1 opts.maxAttempts = none ∧
      waitForDatabase opts pings =
        ⟨.error (opts.unreachable
          (if opts.maxAttempts = 0 then none else pings.ping opts.maxAttempts)),
          opts.maxAttempts, opts.sleepsAfter pings 1 (opts.maxAttempts - 1)⟩) := by
  rw [waitForDatabase_eq]
  unfold waited
  cases found : pings.decisive 1 opts.maxAttempts with
  | none => exact Or.inr ⟨rfl, rfl⟩
  | some decided =>
      have bounds := Pings.decisive_bounds found
      have counted : decided - 1 + 1 = decided := by omega
      refine Or.inl ⟨decided, rfl, ?_⟩
      dsimp only
      rw [counted]

end WaitOptions

namespace Pings

variable {pings : Pings}

/-- No code of the list: the ping decides, whatever the message says. -/
theorem not_transient_of_code {attempt : Nat} {message code : String}
    (isOpen : pings.closed = false)
    (raised : pings.raised attempt = some (.driver message (some code)))
    (other : code ∉ Raised.transientCodes) : pings.transient attempt = false := by
  unfold transient ping
  rw [isOpen, raised]
  simp only [Bool.false_eq_true, if_false, Option.map_some]
  have refused : Raised.isTransientDbError (.driver message (some code)) = false := by
    simpa [Raised.isTransientDbError, Raised.pgErrorCode] using other
  unfold Raised.wrapDbError
  split
  · exact refused
  · exact refused

theorem verdict_ok_iff {attempt : Nat} :
    pings.verdict attempt = .ok () ↔ pings.ping attempt = none := by
  unfold verdict
  cases pings.ping attempt with
  | none => simp
  | some e => simp

end Pings

namespace Waited

variable (opts : WaitOptions) (pings : Pings)

theorem pings_le : (waitForDatabase opts pings).pings ≤ opts.maxAttempts := by
  rcases opts.waitForDatabase_ends pings with ⟨decided, found, ended⟩ | ⟨-, ended⟩
  · have bounds := Pings.decisive_bounds found
    rw [ended]
    dsimp only
    omega
  · rw [ended]

theorem sleeps_eq : (waitForDatabase opts pings).sleeps =
    opts.sleepsAfter pings 1 ((waitForDatabase opts pings).pings - 1) := by
  rcases opts.waitForDatabase_ends pings with ⟨decided, -, ended⟩ | ⟨-, ended⟩
  · rw [ended]
  · rw [ended]

theorem transient_before {attempt : Nat} (after : 1 ≤ attempt)
    (before : attempt < (waitForDatabase opts pings).pings) : pings.transient attempt = true := by
  rcases opts.waitForDatabase_ends pings with ⟨decided, found, ended⟩ | ⟨undecided, ended⟩
  · rw [ended] at before
    exact Pings.transient_before_decisive found after before
  · rw [ended] at before
    exact Pings.transient_of_undecided undecided after (Nat.lt_add_left 1 before)

/-- A ping that decides is the last one. -/
theorem pings_le_of_decides {attempt : Nat} (after : 1 ≤ attempt)
    (decides : pings.transient attempt = false) :
    (waitForDatabase opts pings).pings ≤ attempt := by
  by_contra later
  rw [transient_before opts pings after (Nat.lt_of_not_le later)] at decides
  cases decides

theorem result_ok_iff : (waitForDatabase opts pings).result = .ok () ↔
    Exists fun attempt : Nat => 1 ≤ attempt ∧ attempt ≤ opts.maxAttempts ∧
      pings.ping attempt = none ∧
      forall earlier : Nat, 1 ≤ earlier -> earlier < attempt -> pings.transient earlier = true := by
  constructor
  · intro connected
    rcases opts.waitForDatabase_ends pings with ⟨decided, found, ended⟩ | ⟨-, ended⟩
    · have bounds := Pings.decisive_bounds found
      rw [ended] at connected
      exact ⟨decided, bounds.1, by omega, Pings.verdict_ok_iff.mp connected,
        fun earlier after before => Pings.transient_before_decisive found after before⟩
    · rw [ended] at connected
      cases connected
  · rintro ⟨attempt, after, within, answered, waiting⟩
    have decides := Pings.not_transient_of_ok answered
    rcases opts.waitForDatabase_ends pings with ⟨decided, found, ended⟩ | ⟨undecided, -⟩
    · have bounds := Pings.decisive_bounds found
      have same : decided = attempt := by
        rcases Nat.lt_trichotomy decided attempt with before | same | later
        · have contrary := waiting decided bounds.1 before
          rw [Pings.decisive_decides found] at contrary
          cases contrary
        · exact same
        · rw [Pings.transient_before_decisive found after later] at decides
          cases decides
      rw [ended]
      exact Pings.verdict_ok_iff.mpr (same.symm ▸ answered)
    · rw [Pings.transient_of_undecided undecided after (by omega)] at decides
      cases decides

theorem failure_eq {failure : Raised}
    (failed : (waitForDatabase opts pings).result = .error failure) :
    (Exists fun e : Raised => pings.ping (waitForDatabase opts pings).pings = some e ∧
      e.unwrapCause.isTransientDbError = false ∧ failure = WaitOptions.cannotConnect e) ∨
    ((waitForDatabase opts pings).pings = opts.maxAttempts ∧ failure = opts.unreachable
      (if opts.maxAttempts = 0 then none else pings.ping opts.maxAttempts)) := by
  rcases opts.waitForDatabase_ends pings with ⟨decided, found, ended⟩ | ⟨-, ended⟩
  · rw [ended] at failed ⊢
    have decides := Pings.decisive_decides found
    dsimp only at failed ⊢
    unfold Pings.verdict at failed
    cases answered : pings.ping decided with
    | none =>
        rw [answered] at failed
        cases failed
    | some e =>
        rw [answered] at failed
        rw [Pings.transient_of_failed answered] at decides
        cases failed
        exact Or.inl ⟨e, rfl, decides, rfl⟩
  · rw [ended] at failed ⊢
    cases failed
    exact Or.inr ⟨rfl, rfl⟩

end Waited

/-- `waitForDatabase` connects just if one of its pings succeeds and every
earlier one fails for a reason that may pass.  It pings again after such a
failure only, sleeps once between two pings, and never longer than the delay
allows.  It gives up with the error that ended it.

An error of the driver with a code ends the wait at once, unless the code is one
of the four: what the message says does not count then.  The errors of a socket
are of this kind, `ECONNREFUSED` for one. -/
theorem database_is_waited_for (opts : WaitOptions) (pings : Pings) :
    let run := waitForDatabase opts pings
    run.pings ≤ opts.maxAttempts ∧ run.sleeps.length = run.pings - 1 ∧
    (forall (index : Nat) (inRange : index < run.sleeps.length),
      run.sleeps[index] ≤ min opts.maxMs (opts.initialMs * 2 ^ index)) ∧
    (forall attempt : Nat, 1 ≤ attempt -> attempt < run.pings -> pings.transient attempt = true) ∧
    (run.result = .ok () ↔ Exists fun attempt : Nat => 1 ≤ attempt ∧ attempt ≤ opts.maxAttempts ∧
      pings.ping attempt = none ∧
      forall earlier : Nat, 1 ≤ earlier -> earlier < attempt -> pings.transient earlier = true) ∧
    (forall failure : Raised, run.result = .error failure ->
      (Exists fun e : Raised => pings.ping run.pings = some e ∧
        e.unwrapCause.isTransientDbError = false ∧ failure = WaitOptions.cannotConnect e) ∨
      (run.pings = opts.maxAttempts ∧ failure = opts.unreachable
        (if opts.maxAttempts = 0 then none else pings.ping opts.maxAttempts))) ∧
    (forall (attempt : Nat) (message code : String), 1 ≤ attempt -> pings.closed = false ->
      pings.raised attempt = some (.driver message (some code)) ->
      code ∉ Raised.transientCodes -> run.pings ≤ attempt) := by
  intro run
  refine ⟨Waited.pings_le opts pings, ?_, ?_, ?_, Waited.result_ok_iff opts pings, ?_, ?_⟩
  · have slept : run.sleeps = opts.sleepsAfter pings 1 (run.pings - 1) :=
      Waited.sleeps_eq opts pings
    rw [slept, WaitOptions.sleepsAfter_length]
  · intro index inRange
    have slept : run.sleeps = opts.sleepsAfter pings 1 (run.pings - 1) :=
      Waited.sleeps_eq opts pings
    simp only [slept]
    exact WaitOptions.getElem_sleepsAfter_le _ _ (slept ▸ inRange)
  · intro attempt after before
    exact Waited.transient_before opts pings after before
  · intro failure failed
    exact Waited.failure_eq opts pings failed
  · intro attempt message code after isOpen raised other
    exact Waited.pings_le_of_decides opts pings after
      (Pings.not_transient_of_code isOpen raised other)

end PgJobQ
