import Mathlib.Data.List.Basic

/-!
# Scripts of statements that commit one by one

A script sends statements one after the other and goes on from the answers.
Each statement commits on its own or fails on its own, so a script that is cut
off leaves what its first statements have committed.  It is cut off by a
statement that fails, by one whose answer is lost, or because the process stops
before or after a statement.

A journal reads two things off a state: the view, which some statements change,
and a log of entries, which other statements extend.  The question is when the
log agrees with the changes, whatever cuts the script off.  Where the one change
or the first of several stands before the record of it, everything turns on
these two places.
-/

namespace Scripts

/-- A program that sends statements and is given their answers. -/
inductive Script (Query : Type -> Type) (Failure Result : Type) : Type 1 where
  | done (result : Except Failure Result)
  | ask {Answer : Type} (query : Query Answer) (next : Answer -> Script Query Failure Result)

inductive Fault (Failure : Type) where
  /-- The statement fails. -/
  | refused (failure : Failure)
  /-- The statement commits and its answer is lost. -/
  | lost (failure : Failure)
  | stopsBefore
  | stopsAfter

namespace Fault

variable {Failure : Type}

/-- The statement at the fault commits. -/
def commits : Fault Failure -> Bool
  | lost _ => true
  | stopsAfter => true
  | _ => false

/-- The process stops. -/
def stops : Fault Failure -> Bool
  | stopsBefore => true
  | stopsAfter => true
  | _ => false

end Fault

/-- The first fault of a run, and the statements that are answered before it. -/
structure Disturbance (Failure : Type) where
  place : Nat
  fault : Fault Failure

/-- The statements that commit before the script is cut off. -/
def Disturbance.committed {Failure : Type} (disturbance : Disturbance Failure) : Nat :=
  if disturbance.fault.commits then disturbance.place + 1 else disturbance.place

inductive Outcome (Failure Result : Type) where
  | returned (result : Result)
  | threw (failure : Failure)
  | stopped

def Outcome.ofResult {Failure Result : Type} : Except Failure Result -> Outcome Failure Result
  | .ok result => returned result
  | .error failure => threw failure

/-- The script is cut off with this outcome. -/
def Fault.outcome {Failure Result : Type} : Fault Failure -> Outcome Failure Result
  | refused failure => .threw failure
  | lost failure => .threw failure
  | stopsBefore => .stopped
  | stopsAfter => .stopped

def Outcome.Throws {Failure Result : Type} (outcome : Outcome Failure Result) : Prop :=
  Exists fun failure : Failure => outcome = .threw failure

theorem Fault.outcome_throws_iff {Failure Result : Type} (fault : Fault Failure) :
    (fault.outcome : Outcome Failure Result).Throws <-> fault.stops = false := by
  cases fault with
  | refused failure => exact ⟨fun _ => rfl, fun _ => ⟨failure, rfl⟩⟩
  | lost failure => exact ⟨fun _ => rfl, fun _ => ⟨failure, rfl⟩⟩
  | stopsBefore => exact ⟨(fun ⟨_, stopped⟩ => nomatch stopped), (fun running => nomatch running)⟩
  | stopsAfter => exact ⟨(fun ⟨_, stopped⟩ => nomatch stopped), (fun running => nomatch running)⟩

/-- What a committed statement has done. -/
inductive Effect (Change Entry : Type) where
  | silent
  | change (change : Change)
  | record (entry : Entry)

namespace Effect

variable {Change Entry : Type}

def changes : List (Effect Change Entry) -> List Change
  | [] => []
  | change made :: effects => made :: changes effects
  | _ :: effects => changes effects

def records : List (Effect Change Entry) -> List Entry
  | [] => []
  | record entry :: effects => entry :: records effects
  | _ :: effects => records effects

theorem changes_append (before after : List (Effect Change Entry)) :
    changes (before ++ after) = changes before ++ changes after := by
  induction before with
  | nil => rfl
  | cons effect before inductionHypothesis =>
      cases effect with
      | silent => exact inductionHypothesis
      | change made => exact congrArg (made :: ·) inductionHypothesis
      | record entry => exact inductionHypothesis

theorem records_append (before after : List (Effect Change Entry)) :
    records (before ++ after) = records before ++ records after := by
  induction before with
  | nil => rfl
  | cons effect before inductionHypothesis =>
      cases effect with
      | silent => exact inductionHypothesis
      | change made => exact inductionHypothesis
      | record entry => exact congrArg (entry :: ·) inductionHypothesis

theorem changes_take_eq_nil {effects : List (Effect Change Entry)} (none : changes effects = [])
    (count : Nat) : changes (effects.take count) = [] := by
  have whole := none
  rw [← List.take_append_drop count effects, changes_append, List.append_eq_nil_iff] at whole
  exact whole.1

theorem records_take_eq_nil {effects : List (Effect Change Entry)} (none : records effects = [])
    (count : Nat) : records (effects.take count) = [] := by
  have whole := none
  rw [← List.take_append_drop count effects, records_append, List.append_eq_nil_iff] at whole
  exact whole.1

end Effect

structure Trace (State Change Entry Failure Result : Type) where
  state : State
  /-- What the committed statements have done, the first one first. -/
  effects : List (Effect Change Entry)
  /-- The number of statements that were sent. -/
  asked : Nat
  outcome : Outcome Failure Result

/-- The statement before those of the trace has committed. -/
def Trace.after {State Change Entry Failure Result : Type} (effect : Effect Change Entry)
    (trace : Trace State Change Entry Failure Result) : Trace State Change Entry Failure Result :=
  { trace with effects := effect :: trace.effects, asked := trace.asked + 1 }

/-- How statements are executed, at a moment each.  A statement that fails may
use up what is not read back. -/
structure Machine (Moment State : Type) (Query : Type -> Type) (Failure Change Entry : Type) where
  exec : {Answer : Type} -> Moment -> State -> Query Answer -> Except Failure Answer × State
  effect : {Answer : Type} -> Query Answer -> Answer -> Effect Change Entry

/-- The moments of the statements after the first. -/
def later {Moment : Type} (moments : Nat -> Moment) : Nat -> Moment :=
  fun place => moments (place + 1)

section Runs

variable {Moment State Failure Change Entry Result : Type} {Query : Type -> Type}

/-- The script is cut off at this statement. -/
def cutOff (machine : Machine Moment State Query Failure Change Entry) {Answer : Type}
    (moment : Moment) (start : State) (query : Query Answer) (fault : Fault Failure) :
    Trace State Change Entry Failure Result :=
  if fault.commits then
    match machine.exec moment start query with
    | (.error _, next) => ⟨next, [], 1, fault.outcome⟩
    | (.ok answer, next) => ⟨next, [machine.effect query answer], 1, fault.outcome⟩
  else ⟨start, [], 1, fault.outcome⟩

def run (machine : Machine Moment State Query Failure Change Entry) :
    Script Query Failure Result -> (Nat -> Moment) -> Option (Disturbance Failure) -> State ->
      Trace State Change Entry Failure Result
  | .done result, _, _, start => ⟨start, [], 0, .ofResult result⟩
  | .ask query _, moments, some ⟨0, fault⟩, start => cutOff machine (moments 0) start query fault
  | .ask query next, moments, some ⟨place + 1, fault⟩, start =>
      match machine.exec (moments 0) start query with
      | (.error failure, state) => ⟨state, [], 1, .threw failure⟩
      | (.ok answer, state) =>
          (run machine (next answer) (later moments) (some ⟨place, fault⟩) state).after
            (machine.effect query answer)
  | .ask query next, moments, none, start =>
      match machine.exec (moments 0) start query with
      | (.error failure, state) => ⟨state, [], 1, .threw failure⟩
      | (.ok answer, state) =>
          (run machine (next answer) (later moments) none state).after (machine.effect query answer)

variable {machine : Machine Moment State Query Failure Change Entry}

theorem run_ask_of_ok {Answer : Type} {query : Query Answer}
    {next : Answer -> Script Query Failure Result} {moments : Nat -> Moment} {start state : State}
    {answer : Answer} (executed : machine.exec (moments 0) start query = (.ok answer, state)) :
    run machine (.ask query next) moments none start =
      (run machine (next answer) (later moments) none state).after (machine.effect query answer) := by
  simp only [run, executed]

theorem run_ask_of_error {Answer : Type} {query : Query Answer}
    {next : Answer -> Script Query Failure Result} {moments : Nat -> Moment} {start state : State}
    {failure : Failure} (executed : machine.exec (moments 0) start query = (.error failure, state)) :
    run machine (.ask query next) moments none start = ⟨state, [], 1, .threw failure⟩ := by
  simp only [run, executed]

/-! ## Runs that are cut off -/

/-- A fault that comes after the last statement changes nothing. -/
theorem run_of_asked_le (script : Script Query Failure Result) (moments : Nat -> Moment)
    (start : State) {disturbance : Disturbance Failure}
    (late : (run machine script moments none start).asked ≤ disturbance.place) :
    run machine script moments (some disturbance) start = run machine script moments none start := by
  induction script generalizing moments start disturbance with
  | done result => rfl
  | ask query next inductionHypothesis =>
      rcases disturbance with ⟨place, fault⟩
      cases executed : machine.exec (moments 0) start query with
      | mk outcome state =>
          cases outcome with
          | error failure =>
              cases place with
              | zero =>
                  simp only [run, executed] at late
                  exact absurd late (by decide)
              | succ place => simp only [run, executed]
          | ok answer =>
              cases place with
              | zero =>
                  simp only [run, executed, Trace.after] at late
                  exact absurd late (Nat.not_succ_le_zero _)
              | succ place =>
                  simp only [run, executed, Trace.after] at late ⊢
                  rw [inductionHypothesis answer _ _ (Nat.le_of_succ_le_succ late)]

/-- A script that is cut off has done what its first statements do. -/
theorem run_effects (script : Script Query Failure Result) (moments : Nat -> Moment)
    (start : State) (disturbance : Disturbance Failure) :
    (run machine script moments (some disturbance) start).effects =
      (run machine script moments none start).effects.take disturbance.committed := by
  induction script generalizing moments start disturbance with
  | done result => exact List.take_nil.symm
  | ask query next inductionHypothesis =>
      rcases disturbance with ⟨place, fault⟩
      cases executed : machine.exec (moments 0) start query with
      | mk outcome state =>
          cases place with
          | zero =>
              cases fault <;> cases outcome <;>
                simp [run, cutOff, Fault.commits, Disturbance.committed, executed, Trace.after]
          | succ place =>
              cases outcome with
              | error failure => simp only [run, executed, List.take_nil]
              | ok answer =>
                  have rest := inductionHypothesis answer (later moments) state ⟨place, fault⟩
                  have counted : (⟨place + 1, fault⟩ : Disturbance Failure).committed =
                      (⟨place, fault⟩ : Disturbance Failure).committed + 1 := by
                    unfold Disturbance.committed
                    split
                    · rfl
                    · rfl
                  simp only [run, executed, Trace.after, counted, List.take_succ_cons, rest]

/-- Before the last statement the fault decides how the run ends. -/
theorem run_outcome (script : Script Query Failure Result) (moments : Nat -> Moment)
    (start : State) {disturbance : Disturbance Failure}
    (early : disturbance.place < (run machine script moments none start).asked) :
    (run machine script moments (some disturbance) start).outcome = disturbance.fault.outcome := by
  induction script generalizing moments start disturbance with
  | done result => exact absurd early (Nat.not_lt_zero _)
  | ask query next inductionHypothesis =>
      rcases disturbance with ⟨place, fault⟩
      cases executed : machine.exec (moments 0) start query with
      | mk outcome state =>
          cases place with
          | zero =>
              simp only [run, cutOff, executed]
              split
              · cases outcome with
                | error failure => rfl
                | ok answer => rfl
              · rfl
          | succ place =>
              cases outcome with
              | error failure =>
                  simp only [run, executed] at early
                  exact absurd (Nat.lt_of_succ_lt_succ early) (Nat.not_lt_zero _)
              | ok answer =>
                  simp only [run, executed, Trace.after] at early ⊢
                  exact inductionHypothesis answer _ _ (Nat.lt_of_succ_lt_succ early)

/-- A run that returns has committed every statement it sent. -/
theorem asked_of_returned (script : Script Query Failure Result) (moments : Nat -> Moment)
    (start : State) {result : Result}
    (returned : (run machine script moments none start).outcome = .returned result) :
    (run machine script moments none start).asked =
      (run machine script moments none start).effects.length := by
  induction script generalizing moments start with
  | done ended => rfl
  | ask query next inductionHypothesis =>
      cases executed : machine.exec (moments 0) start query with
      | mk outcome state =>
          cases outcome with
          | error failure =>
              simp only [run, executed] at returned
              cases returned
          | ok answer =>
              simp only [run, executed, Trace.after] at returned ⊢
              rw [List.length_cons, inductionHypothesis answer _ _ returned]

end Runs

/-! ## Journals -/

/-- The view and the log of a state.  A statement that fails touches neither. -/
structure Journal {Moment State Failure Change Entry : Type} {Query : Type -> Type}
    (machine : Machine Moment State Query Failure Change Entry) (View : Type) where
  view : State -> View
  log : State -> List Entry
  failed : forall {Answer : Type} {moment : Moment} {start next : State} {query : Query Answer}
    {failure : Failure}, machine.exec moment start query = (.error failure, next) ->
      view next = view start ∧ log next = log start
  logged : forall {Answer : Type} {moment : Moment} {start next : State} {query : Query Answer}
    {answer : Answer}, machine.exec moment start query = (.ok answer, next) ->
      log next = log start ++ Effect.records [machine.effect query answer]
  quiet : forall {Answer : Type} {moment : Moment} {start next : State} {query : Query Answer}
    {answer : Answer}, machine.exec moment start query = (.ok answer, next) ->
      Effect.changes [machine.effect query answer] = [] -> view next = view start

namespace Journal

variable {Moment State Failure Change Entry Result View : Type} {Query : Type -> Type}
  {machine : Machine Moment State Query Failure Change Entry} (journal : Journal machine View)

/-- A trace has logged what its statements record, and it has left the view as
it was if none of them changes anything. -/
def Follows (start : State) (trace : Trace State Change Entry Failure Result) : Prop :=
  journal.log trace.state = journal.log start ++ Effect.records trace.effects ∧
    (Effect.changes trace.effects = [] -> journal.view trace.state = journal.view start)

variable {journal}

theorem Follows.of_failed {start next : State} {asked : Nat} {outcome : Outcome Failure Result}
    (kept : journal.view next = journal.view start ∧ journal.log next = journal.log start) :
    journal.Follows start ⟨next, [], asked, outcome⟩ :=
  ⟨kept.2.trans (List.append_nil _).symm, fun _ => kept.1⟩

theorem Follows.after {Answer : Type} {moment : Moment} {start next : State}
    {query : Query Answer} {answer : Answer} {trace : Trace State Change Entry Failure Result}
    (executed : machine.exec moment start query = (.ok answer, next))
    (follows : journal.Follows next trace) :
    journal.Follows start (trace.after (machine.effect query answer)) := by
  have split : trace.effects.cons (machine.effect query answer) =
      [machine.effect query answer] ++ trace.effects := rfl
  constructor
  · show journal.log trace.state = _ ++ Effect.records (_ :: trace.effects)
    rw [follows.1, journal.logged executed, split, Effect.records_append, List.append_assoc]
  · intro unchanged
    have parts : Effect.changes [machine.effect query answer] ++ Effect.changes trace.effects = [] := by
      rw [← Effect.changes_append]
      exact unchanged
    rw [List.append_eq_nil_iff] at parts
    exact (follows.2 parts.2).trans (journal.quiet executed parts.1)

/-- Every run keeps the log, whatever cuts it off. -/
theorem follows_run (script : Script Query Failure Result) (moments : Nat -> Moment)
    (disturbance : Option (Disturbance Failure)) (start : State) :
    journal.Follows start (run machine script moments disturbance start) := by
  induction script generalizing moments disturbance start with
  | done result => exact .of_failed ⟨rfl, rfl⟩
  | ask query next inductionHypothesis =>
      cases executed : machine.exec (moments 0) start query with
      | mk outcome state =>
          rcases disturbance with _ | ⟨_ | place, fault⟩
          · cases outcome with
            | error failure =>
                simp only [run, executed]
                exact .of_failed (journal.failed executed)
            | ok answer =>
                simp only [run, executed]
                exact (inductionHypothesis answer _ _ _).after executed
          · simp only [run, cutOff, executed]
            split
            · cases outcome with
              | error failure => exact .of_failed (journal.failed executed)
              | ok answer =>
                  exact Follows.after executed (@Follows.of_failed _ _ _ _ _ Result _ _ _ journal
                    state state 0 fault.outcome ⟨rfl, rfl⟩)
            · exact .of_failed ⟨rfl, rfl⟩
          · cases outcome with
            | error failure =>
                simp only [run, executed]
                exact .of_failed (journal.failed executed)
            | ok answer =>
                simp only [run, executed]
                exact (inductionHypothesis answer _ _ _).after executed

/-- Changes are made exactly if an entry that describes them is written, and a
run that throws has made none. -/
structure Atomic (journal : Journal machine View) (describes : List Change -> Entry -> Prop)
    (start : State) (trace : Trace State Change Entry Failure Result) : Prop where
  recorded : Effect.changes trace.effects ≠ [] <->
    Exists fun entry : Entry => entry ∈ (journal.log trace.state).drop (journal.log start).length ∧
      describes (Effect.changes trace.effects) entry
  unchanged : trace.outcome.Throws ->
    Effect.changes trace.effects = [] ∧ journal.view trace.state = journal.view start

/-- With the log kept, only the effects matter. -/
theorem Follows.atomic_iff {describes : List Change -> Entry -> Prop} {start : State}
    {trace : Trace State Change Entry Failure Result} (follows : journal.Follows start trace) :
    journal.Atomic describes start trace <->
      (Effect.changes trace.effects ≠ [] <-> Exists fun entry : Entry =>
        entry ∈ Effect.records trace.effects ∧ describes (Effect.changes trace.effects) entry) ∧
        (trace.outcome.Throws -> Effect.changes trace.effects = []) := by
  have written : (journal.log trace.state).drop (journal.log start).length =
      Effect.records trace.effects := by
    rw [follows.1, List.drop_left]
  constructor
  · intro atomic
    exact ⟨written ▸ atomic.recorded, fun thrown => (atomic.unchanged thrown).1⟩
  · rintro ⟨recorded, unchanged⟩
    refine ⟨written ▸ recorded, fun thrown => ⟨unchanged thrown, follows.2 (unchanged thrown)⟩⟩

/-! ## Changes that are recorded afterwards -/

section Recorded

variable {describes : List Change -> Entry -> Prop}

/-- Where the first change and its record stand among the statements of a run,
and how many there are. -/
structure Places where
  change : Nat
  record : Nat
  asked : Nat

/-- The effects change something and then record it. -/
inductive Recorded (describes : List Change -> Entry -> Prop) :
    List (Effect Change Entry) -> Places -> Prop
  | intro {before middle after : List (Effect Change Entry)} {made : Change} {entry : Entry}
      (unchanged : Effect.changes before = []) (silent : Effect.records before = [])
      (unrecorded : Effect.records middle = [])
      (described : describes (made :: Effect.changes middle) entry)
      (settled : Effect.changes after = []) :
      Recorded describes (before ++ .change made :: (middle ++ .record entry :: after))
        ⟨before.length, before.length + 1 + middle.length,
          before.length + 1 + middle.length + 1 + after.length⟩

/-- The effects change something and record nothing. -/
inductive Unrecorded : List (Effect Change Entry) -> Nat -> Prop
  | intro {before middle : List (Effect Change Entry)} {made : Change}
      (unchanged : Effect.changes before = []) (silent : Effect.records before = [])
      (unrecorded : Effect.records middle = []) :
      Unrecorded (before ++ .change made :: middle) before.length

/-- The first statements of a run have changed something once the first change
is among them. -/
theorem changes_take_iff {before rest : List (Effect Change Entry)} {made : Change} (count : Nat)
    (unchanged : Effect.changes before = []) :
    Effect.changes ((before ++ .change made :: rest).take count) = [] <-> count ≤ before.length := by
  constructor
  · intro none
    by_contra beyond
    rcases Nat.exists_eq_add_of_lt (Nat.lt_of_not_le beyond) with ⟨more, rfl⟩
    rw [Nat.add_assoc, List.take_length_add_append, Effect.changes_append, unchanged,
      List.take_succ_cons] at none
    cases none
  · intro within
    rw [List.take_append_of_le_length within]
    exact Effect.changes_take_eq_nil unchanged count

/-- They have described it once the record is among them. -/
theorem Recorded.described_iff {effects : List (Effect Change Entry)} {places : Places}
    (recorded : Recorded describes effects places) (count : Nat) :
    (Exists fun entry : Entry => entry ∈ Effect.records (effects.take count) ∧
      describes (Effect.changes (effects.take count)) entry) <-> places.record < count := by
  rcases recorded with ⟨unchanged, silent, unrecorded, described, settled⟩
  rename_i before middle after made entry
  have split : before ++ .change made :: (middle ++ .record entry :: after) =
      (before ++ .change made :: middle) ++ .record entry :: after := by
    rw [List.append_assoc, List.cons_append]
  have length : (before ++ (.change made : Effect Change Entry) :: middle).length =
      before.length + 1 + middle.length := by
    rw [List.length_append, List.length_cons, Nat.add_assoc, Nat.add_comm 1]
  have noRecord : Effect.records (before ++ .change made :: middle) = [] := by
    rw [Effect.records_append, silent]
    exact unrecorded
  rw [split]
  dsimp only
  rw [← length]
  constructor
  · rintro ⟨written, member, _⟩
    by_contra short
    rw [List.take_append_of_le_length (Nat.le_of_not_lt short),
      Effect.records_take_eq_nil noRecord] at member
    cases member
  · intro beyond
    rcases Nat.exists_eq_add_of_lt beyond with ⟨more, rfl⟩
    rw [Nat.add_assoc, List.take_length_add_append, List.take_succ_cons, Effect.records_append,
      Effect.changes_append, noRecord, Effect.changes_append, unchanged]
    refine ⟨entry, List.mem_cons_self, ?_⟩
    show describes ((made :: Effect.changes middle) ++ Effect.changes (after.take more)) entry
    rw [Effect.changes_take_eq_nil settled, List.append_nil]
    exact described

theorem Recorded.changes_iff {effects : List (Effect Change Entry)} {places : Places}
    (recorded : Recorded describes effects places) (count : Nat) :
    Effect.changes (effects.take count) = [] <-> count ≤ places.change := by
  rcases recorded with ⟨unchanged⟩
  exact changes_take_iff count unchanged

theorem Unrecorded.changes_iff {effects : List (Effect Change Entry)} {place : Nat}
    (unrecorded : Unrecorded effects place) (count : Nat) :
    Effect.changes (effects.take count) = [] <-> count ≤ place := by
  rcases unrecorded with ⟨unchanged⟩
  exact changes_take_iff count unchanged

theorem Unrecorded.records {effects : List (Effect Change Entry)} {place : Nat}
    (unrecorded : Unrecorded effects place) : Effect.records effects = [] := by
  rcases unrecorded with ⟨_, silent, unrecorded⟩
  rw [Effect.records_append, silent]
  exact unrecorded

theorem Recorded.length {effects : List (Effect Change Entry)} {places : Places}
    (recorded : Recorded describes effects places) : effects.length = places.asked := by
  rcases recorded
  simp only [List.length_append, List.length_cons]
  omega

theorem Recorded.ordered {effects : List (Effect Change Entry)} {places : Places}
    (recorded : Recorded describes effects places) :
    places.change < places.record ∧ places.record < places.asked := by
  rcases recorded
  dsimp only
  omega

variable {script : Script Query Failure Result} {moments : Nat -> Moment} {start : State}

/-- A run that changes nothing is atomic wherever it is cut off. -/
theorem atomic_of_unchanged (nothing : forall entry, Not (describes [] entry))
    (unchanged : Effect.changes (run machine script moments none start).effects = [])
    (disturbance : Option (Disturbance Failure)) :
    journal.Atomic describes start (run machine script moments disturbance start) := by
  have none : Effect.changes (run machine script moments disturbance start).effects = [] := by
    cases disturbance with
    | none => exact unchanged
    | some disturbance =>
        rw [run_effects]
        exact Effect.changes_take_eq_nil unchanged _
  apply (follows_run script moments disturbance start).atomic_iff.mpr
  rw [none]
  refine ⟨⟨fun changed => absurd rfl changed, ?_⟩, fun _ => rfl⟩
  rintro ⟨entry, _, described⟩
  exact absurd described (nothing entry)

/-- A run that returns after recording its changes is atomic if it is not cut
off, if it is cut off before the first change, or if the process stops after
the record. -/
theorem atomic_iff_of_recorded {places : Places}
    (recorded : Recorded describes (run machine script moments none start).effects places)
    {result : Result}
    (returned : (run machine script moments none start).outcome = .returned result)
    (disturbance : Option (Disturbance Failure)) :
    journal.Atomic describes start (run machine script moments disturbance start) <->
      forall cut, disturbance = some cut -> places.asked ≤ cut.place ∨
        cut.committed ≤ places.change ∨
          (places.record < cut.committed ∧ cut.fault.stops = true) := by
  have ordered := recorded.ordered
  have undisturbed :
      journal.Atomic describes start (run machine script moments none start) := by
    apply (follows_run script moments none start).atomic_iff.mpr
    have changed := recorded.changes_iff places.asked
    have described := recorded.described_iff places.asked
    rw [← recorded.length, List.take_length] at changed described
    rw [recorded.length] at changed described
    refine ⟨⟨fun _ => described.mpr ordered.2, fun _ none => ?_⟩, ?_⟩
    · have within := changed.mp none
      omega
    · rintro ⟨failure, thrown⟩
      rw [returned] at thrown
      cases thrown
  cases disturbance with
  | none => exact ⟨fun _ cut isCut => absurd isCut (Option.some_ne_none cut).symm, fun _ => undisturbed⟩
  | some cut =>
      by_cases late : places.asked ≤ cut.place
      · constructor
        · rintro _ other ⟨⟩
          exact Or.inl late
        · intro _
          rw [run_of_asked_le script moments start
            (asked_of_returned script moments start returned ▸ recorded.length ▸ late)]
          exact undisturbed
      · have early : cut.place < (run machine script moments none start).asked := by
          rw [asked_of_returned script moments start returned, recorded.length]
          exact Nat.lt_of_not_le late
        rw [(follows_run script moments (some cut) start).atomic_iff, run_effects,
          run_outcome script moments start early, Fault.outcome_throws_iff,
          recorded.described_iff, Ne, recorded.changes_iff]
        constructor
        · rintro ⟨logged, kept⟩ other ⟨⟩
          by_cases before : cut.committed ≤ places.change
          · exact Or.inr (Or.inl before)
          · refine Or.inr (Or.inr ⟨logged.mp before, ?_⟩)
            by_contra running
            exact before (kept (Bool.eq_false_iff.mpr running))
        · intro spared
          rcases spared cut rfl with beyond | before | ⟨logged, stops⟩
          · exact absurd beyond late
          · refine ⟨⟨fun changed => absurd before changed, fun logged => ?_⟩, fun _ => before⟩
            omega
          · refine ⟨⟨fun _ => logged, fun _ => ?_⟩, fun running => ?_⟩
            · omega
            · rw [stops] at running
              cases running

/-- A run that records nothing is atomic only if it is cut off before the first
change. -/
theorem atomic_iff_of_unrecorded {place : Nat}
    (unrecorded : Unrecorded (run machine script moments none start).effects place)
    (disturbance : Option (Disturbance Failure)) :
    journal.Atomic describes start (run machine script moments disturbance start) <->
      Exists fun cut : Disturbance Failure => disturbance = some cut ∧ cut.committed ≤ place := by
  rw [(follows_run script moments disturbance start).atomic_iff]
  cases disturbance with
  | none =>
      constructor
      · rintro ⟨logged, _⟩
        have changed : Effect.changes (run machine script moments none start).effects ≠ [] := by
          intro none
          have endless := (unrecorded.changes_iff (place + 1)).mp (Effect.changes_take_eq_nil none _)
          exact absurd endless (Nat.not_succ_le_self place)
        rcases logged.mp changed with ⟨entry, written, _⟩
        rw [unrecorded.records] at written
        cases written
      · rintro ⟨cut, isCut, _⟩
        cases isCut
  | some cut =>
      rw [run_effects, Effect.records_take_eq_nil unrecorded.records]
      constructor
      · rintro ⟨logged, _⟩
        refine ⟨cut, rfl, (unrecorded.changes_iff _).mp ?_⟩
        by_contra changed
        rcases logged.mp changed with ⟨entry, written, _⟩
        cases written
      · rintro ⟨_, ⟨⟩, before⟩
        have none := (unrecorded.changes_iff _).mpr before
        refine ⟨⟨fun changed => absurd none changed, ?_⟩, fun _ => none⟩
        rintro ⟨entry, written, _⟩
        cases written

end Recorded

end Journal

end Scripts
