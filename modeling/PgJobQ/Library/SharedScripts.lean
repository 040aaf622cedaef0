import Mathlib.Data.List.Induction
import Mathlib.Logic.Function.Basic
import PgJobQ.Library.Runs
import PgJobQ.Library.Scripts

/-!
# Scripts that take turns on one state

Several parties run a script each over one state, and others change the state
too.  A turn lets a party send its next statement, or lets the others do
something.  The connection may break before the statement is executed, or after
that and before the answer.  What a party has done are the effects of its
executed statements, the first one first, and the history has those of all
parties.

A script goes on from its answers alone.  So a promise that a script keeps
whatever it is answered holds in every interleaving.  Here the promise is that
what a party changes is described by the one entry it records, and the entries
in a log are then those of the parties, in the order in which they were made.
-/

namespace Scripts

variable {Moment State Failure Change Entry Result Other View : Type} {Query : Type -> Type}

/-- What is left of a party's script, and what the party has done. -/
structure Party (Query : Type -> Type) (Failure Result Change Entry : Type) : Type 1 where
  script : Script Query Failure Result
  effects : List (Effect Change Entry)

structure Shared (State : Type) (Query : Type -> Type) (Failure Result Change Entry : Type) :
    Type 1 where
  state : State
  parties : Nat -> Party Query Failure Result Change Entry
  /-- The effects of all parties, the first one first. -/
  history : List (Nat × Effect Change Entry)

/-- What becomes of a statement on its connection. -/
inductive TurnFate (Failure : Type) where
  | answered
  /-- It fails and is not executed. -/
  | refused (failure : Failure)
  /-- It is executed, and its answer is lost. -/
  | lost (failure : Failure)

inductive Turn (Moment Failure Other : Type) where
  | own (party : Nat) (moment : Moment) (fate : TurnFate Failure)
  | others (other : Other)

/-- The next statement of a script: the state after it, the rest of the script
and the effect of the statement, if it was executed. -/
def advance (machine : Machine Moment State Query Failure Change Entry) (moment : Moment)
    (state : State) (fate : TurnFate Failure) : Script Query Failure Result ->
      State × Script Query Failure Result × List (Effect Change Entry)
  | .done result => (state, .done result, [])
  | .ask query next =>
      match fate with
      | .refused failure => (state, .done (.error failure), [])
      | .lost failure =>
          match machine.exec moment state query with
          | (.error _, after) => (after, .done (.error failure), [])
          | (.ok answer, after) => (after, .done (.error failure), [machine.effect query answer])
      | .answered =>
          match machine.exec moment state query with
          | (.error failure, after) => (after, .done (.error failure), [])
          | (.ok answer, after) => (after, next answer, [machine.effect query answer])

def Shared.step (machine : Machine Moment State Query Failure Change Entry)
    (meanwhile : Other -> State -> State)
    (shared : Shared State Query Failure Result Change Entry) :
    Turn Moment Failure Other -> Shared State Query Failure Result Change Entry
  | .others other => { shared with state := meanwhile other shared.state }
  | .own index moment fate =>
      let moved := advance machine moment shared.state fate (shared.parties index).script
      { state := moved.1
        parties := Function.update shared.parties index
          ⟨moved.2.1, (shared.parties index).effects ++ moved.2.2⟩
        history := shared.history ++ moved.2.2.map (fun effect => (index, effect)) }

/-- Parties with these scripts who have done nothing yet. -/
def Shared.start (state : State) (scripts : Nat -> Script Query Failure Result) :
    Shared State Query Failure Result Change Entry where
  state := state
  parties := fun index => ⟨scripts index, []⟩
  history := []

/-- What the turns lead to from the beginning of the scripts. -/
def Shared.after (machine : Machine Moment State Query Failure Change Entry)
    (meanwhile : Other -> State -> State) (state : State)
    (scripts : Nat -> Script Query Failure Result) (turns : List (Turn Moment Failure Other)) :
    Shared State Query Failure Result Change Entry :=
  Runs.run (Shared.step machine meanwhile) (.start state scripts) turns

section

variable {machine : Machine Moment State Query Failure Change Entry}
  {meanwhile : Other -> State -> State}

/-! ## One party among the others -/

/-- A statement that is not executed does nothing, and one whose answer is lost
does what it would have done. -/
theorem advance_executes (moment : Moment) (state : State) (fate : TurnFate Failure)
    (script : Script Query Failure Result) :
    ((advance machine moment state fate script).1 = state ∧
      (advance machine moment state fate script).2.2 = []) ∨
      ((advance machine moment state fate script).1 =
          (advance machine moment state .answered script).1 ∧
        (advance machine moment state fate script).2.2 =
          (advance machine moment state .answered script).2.2) := by
  cases script with
  | done result => exact Or.inl ⟨rfl, rfl⟩
  | ask query next =>
      cases fate with
      | answered => exact Or.inr ⟨rfl, rfl⟩
      | refused failure => exact Or.inl ⟨rfl, rfl⟩
      | lost failure =>
          refine Or.inr ?_
          cases executed : machine.exec moment state query with
          | mk outcome after =>
              simp only [advance, executed]
              cases outcome with
              | error reason => exact ⟨rfl, rfl⟩
              | ok answer => exact ⟨rfl, rfl⟩

theorem Shared.after_append_singleton (state : State)
    (scripts : Nat -> Script Query Failure Result) (turns : List (Turn Moment Failure Other))
    (turn : Turn Moment Failure Other) :
    Shared.after machine meanwhile state scripts (turns ++ [turn]) =
      Shared.step machine meanwhile (Shared.after machine meanwhile state scripts turns) turn :=
  Runs.run_append _ _ turns [turn]

/-- What every turn of a party keeps holds of it in every interleaving, where its
statements have the fates that are allowed. -/
theorem Shared.party_invariant {holds : Party Query Failure Result Change Entry -> Prop}
    {allowed : TurnFate Failure -> Prop}
    (keeps : forall (moment : Moment) (state : State) (fate : TurnFate Failure)
      (party : Party Query Failure Result Change Entry), allowed fate -> holds party ->
        holds ⟨(advance machine moment state fate party.script).2.1,
          party.effects ++ (advance machine moment state fate party.script).2.2⟩)
    {state : State} {scripts : Nat -> Script Query Failure Result} {index : Nat}
    (initially : holds ⟨scripts index, []⟩) (turns : List (Turn Moment Failure Other))
    (all : forall moment fate, .own index moment fate ∈ turns -> allowed fate) :
    holds ((Shared.after machine meanwhile state scripts turns).parties index) := by
  induction turns using List.reverseRecOn with
  | nil => exact initially
  | append_singleton turns turn inductionHypothesis =>
      have kept := inductionHypothesis fun moment fate member =>
        all moment fate (List.mem_append_left [turn] member)
      rw [Shared.after_append_singleton]
      cases turn with
      | others other => exact kept
      | own party moment fate =>
          by_cases same : index = party
          · subst same
            simp only [Shared.step, Function.update_self]
            exact keeps moment _ fate _
              (all moment fate (List.mem_append_right turns (List.mem_singleton_self _))) kept
          · simp only [Shared.step, Function.update_of_ne same]
            exact kept

/-- The history has what each party has done, in its order. -/
theorem Shared.history_of_party (state : State) (scripts : Nat -> Script Query Failure Result)
    (turns : List (Turn Moment Failure Other)) (index : Nat) :
    ((Shared.after machine meanwhile state scripts turns).history.filter
        (fun made => made.1 == index)).map Prod.snd =
      ((Shared.after machine meanwhile state scripts turns).parties index).effects := by
  apply @Runs.run_invariant _ _ (Shared.step machine meanwhile) (fun shared =>
    (shared.history.filter (fun made => made.1 == index)).map Prod.snd =
      (shared.parties index).effects)
  · intro shared turn kept
    cases turn with
    | others other => exact kept
    | own party moment fate =>
        simp only [Shared.step, List.filter_append, List.map_append, kept]
        by_cases same : index = party
        · subst same
          rw [Function.update_self]
          simp [List.filter_map, Function.comp_def]
        · rw [Function.update_of_ne same]
          simp [List.filter_map, Function.comp_def, Ne.symm same]
  · rfl

/-- What is in the history was done in a turn of its party. -/
theorem Shared.turn_of_history {state : State} {scripts : Nat -> Script Query Failure Result}
    {turns : List (Turn Moment Failure Other)} {index : Nat} {effect : Effect Change Entry}
    (done : (index, effect) ∈ (Shared.after machine meanwhile state scripts turns).history) :
    Exists fun before : List (Turn Moment Failure Other) => Exists fun moment : Moment =>
      Exists fun fate : TurnFate Failure => Exists fun rest : List (Turn Moment Failure Other) =>
        turns = before ++ .own index moment fate :: rest ∧
        effect ∈ (advance machine moment (Shared.after machine meanwhile state scripts before).state
          fate ((Shared.after machine meanwhile state scripts before).parties index).script).2.2 := by
  induction turns using List.reverseRecOn with
  | nil => cases done
  | append_singleton turns turn inductionHypothesis =>
      have earlier : (index, effect) ∈
          (Shared.after machine meanwhile state scripts turns).history ->
          Exists fun before : List (Turn Moment Failure Other) => Exists fun moment : Moment =>
            Exists fun fate : TurnFate Failure => Exists fun rest : List (Turn Moment Failure Other) =>
              turns ++ [turn] = before ++ .own index moment fate :: rest ∧
              effect ∈ (advance machine moment
                (Shared.after machine meanwhile state scripts before).state fate
                ((Shared.after machine meanwhile state scripts before).parties index).script).2.2 := by
        intro member
        rcases inductionHypothesis member with ⟨before, moment, fate, rest, split, made⟩
        refine ⟨before, moment, fate, rest ++ [turn], ?_, made⟩
        rw [split, List.append_assoc]
        exact rfl
      rw [Shared.after_append_singleton] at done
      cases turn with
      | others other => exact earlier done
      | own party moment fate =>
          rcases List.mem_append.mp done with before | new
          · exact earlier before
          · rcases List.mem_map.mp new with ⟨made, member, same⟩
            cases same
            exact ⟨turns, moment, fate, [], rfl, member⟩

/-! ## The log -/

theorem Journal.log_advance (journal : Journal machine View) (moment : Moment) (state : State)
    (fate : TurnFate Failure) (script : Script Query Failure Result) :
    journal.log (advance machine moment state fate script).1 =
      journal.log state ++ Effect.records (advance machine moment state fate script).2.2 := by
  have answered : journal.log (advance machine moment state .answered script).1 =
      journal.log state ++ Effect.records (advance machine moment state .answered script).2.2 := by
    cases script with
    | done result => exact (List.append_nil _).symm
    | ask query next =>
        cases executed : machine.exec moment state query with
        | mk outcome after =>
            simp only [advance, executed]
            cases outcome with
            | error failure => exact ((journal.failed executed).2).trans (List.append_nil _).symm
            | ok answer => exact journal.logged executed
  rcases @advance_executes _ _ _ _ _ _ _ machine moment state fate script with
    ⟨stays, silent⟩ | ⟨same, effects⟩
  · rw [stays, silent]
    exact (List.append_nil _).symm
  · rw [same, effects]
    exact answered

/-- If nobody else writes it, the log has what the parties record. -/
theorem Journal.log_of_turns (journal : Journal machine View)
    (silent : forall other state, journal.log (meanwhile other state) = journal.log state)
    (state : State) (scripts : Nat -> Script Query Failure Result)
    (turns : List (Turn Moment Failure Other)) :
    journal.log (Shared.after machine meanwhile state scripts turns).state =
      journal.log state ++ Effect.records
        ((Shared.after machine meanwhile state scripts turns).history.map Prod.snd) := by
  apply @Runs.run_invariant _ _ (Shared.step machine meanwhile) (fun shared =>
    journal.log shared.state = journal.log state ++ Effect.records (shared.history.map Prod.snd))
  · intro shared turn kept
    cases turn with
    | others other => exact (silent other shared.state).trans kept
    | own party moment fate =>
        have copied : (((advance machine moment shared.state fate
            (shared.parties party).script).2.2.map (fun effect => (party, effect))).map Prod.snd) =
            (advance machine moment shared.state fate (shared.parties party).script).2.2 := by
          rw [List.map_map]
          exact List.map_id _
        simp only [Shared.step, List.map_append, Effect.records_append, copied]
        rw [journal.log_advance, kept, List.append_assoc]
  · exact (List.append_nil _).symm

/-! ## Promises -/

/-- What was changed is described by the one entry that was recorded. -/
def AccountedFor (describes : List Change -> Entry -> Prop)
    (effects : List (Effect Change Entry)) : Prop :=
  (Effect.changes effects = [] ∧ (Effect.records effects).length ≤ 1) ∨
    Exists fun entry : Entry => Effect.records effects = [entry] ∧
      describes (Effect.changes effects) entry

def Machine.MayFail (machine : Machine Moment State Query Failure Change Entry) {Answer : Type}
    (query : Query Answer) : Prop :=
  Exists fun moment : Moment => Exists fun state : State => Exists fun failure : Failure =>
    Exists fun after : State => machine.exec moment state query = (.error failure, after)

def Machine.MayAnswer (machine : Machine Moment State Query Failure Change Entry) {Answer : Type}
    (query : Query Answer) (answer : Answer) : Prop :=
  Exists fun moment : Moment => Exists fun state : State =>
    Exists fun after : State => machine.exec moment state query = (.ok answer, after)

variable (machine) in
/-- Whatever the script is answered after these effects: what it records
describes what it has changed, and it does not end before that, nor, where its
statements are reliable, by one that fails in the database. -/
def KeepsAccount (describes : List Change -> Entry -> Prop) (reliable : Prop) :
    Script Query Failure Result -> List (Effect Change Entry) -> Prop
  | .done _, effects => AccountedFor describes effects
  | .ask query next, effects =>
      (Effect.records effects ≠ [] -> AccountedFor describes effects) ∧
        (reliable -> machine.MayFail query -> AccountedFor describes effects) ∧
        forall answer, machine.MayAnswer query answer ->
          KeepsAccount describes reliable (next answer) (effects ++ [machine.effect query answer])

variable {describes : List Change -> Entry -> Prop} {reliable : Prop}

theorem AccountedFor.silent {effects : List (Effect Change Entry)}
    (settled : AccountedFor describes effects) :
    AccountedFor describes (effects ++ [.silent]) := by
  have changed : Effect.changes (effects ++ [.silent]) = Effect.changes effects := by
    rw [Effect.changes_append]
    exact List.append_nil _
  have recorded : Effect.records (effects ++ [.silent]) = Effect.records effects := by
    rw [Effect.records_append]
    exact List.append_nil _
  unfold AccountedFor
  rw [changed, recorded]
  exact settled

/-- An entry is recorded once all changes have been made. -/
theorem KeepsAccount.accountedFor_of_records {script : Script Query Failure Result}
    {effects : List (Effect Change Entry)}
    (accounts : KeepsAccount machine describes reliable script effects)
    (recorded : Effect.records effects ≠ []) : AccountedFor describes effects := by
  cases script with
  | done result => exact accounts
  | ask query next => exact accounts.1 recorded

/-- A party whose script still accounts for what it does, or has failed. -/
inductive Party.Accounts (machine : Machine Moment State Query Failure Change Entry)
    (describes : List Change -> Entry -> Prop) (reliable : Prop) :
    Party Query Failure Result Change Entry -> Prop where
  | goesOn {script effects} (keeps : KeepsAccount machine describes reliable script effects) :
      Party.Accounts machine describes reliable ⟨script, effects⟩
  | failed {failure effects}
      (described : Effect.records effects ≠ [] -> AccountedFor describes effects) :
      Party.Accounts machine describes reliable ⟨.done (.error failure), effects⟩

theorem KeepsAccount.advance {script : Script Query Failure Result}
    {effects : List (Effect Change Entry)}
    (accounts : KeepsAccount machine describes reliable script effects)
    (moment : Moment) (state : State) (fate : TurnFate Failure) :
    Party.Accounts machine describes reliable
      ⟨(Scripts.advance machine moment state fate script).2.1,
        effects ++ (Scripts.advance machine moment state fate script).2.2⟩ := by
  cases script with
  | done result =>
      simp only [Scripts.advance, List.append_nil]
      exact .goesOn accounts
  | ask query next =>
      cases executed : machine.exec moment state query with
      | mk outcome after =>
          have stops : forall failure : Failure, Party.Accounts machine describes reliable
              ⟨(.done (.error failure) : Script Query Failure Result), effects ++ []⟩ := by
            intro failure
            rw [List.append_nil]
            exact .failed accounts.1
          cases fate with
          | refused failure => exact stops failure
          | lost failure =>
              cases outcome with
              | error reason =>
                  simp only [Scripts.advance, executed]
                  exact stops failure
              | ok answer =>
                  simp only [Scripts.advance, executed]
                  have next := accounts.2.2 answer ⟨moment, state, after, executed⟩
                  exact .failed next.accountedFor_of_records
          | answered =>
              cases outcome with
              | error failure =>
                  simp only [Scripts.advance, executed]
                  exact stops failure
              | ok answer =>
                  simp only [Scripts.advance, executed]
                  exact .goesOn (accounts.2.2 answer ⟨moment, state, after, executed⟩)

/-- Where all statements are answered and reliable, the script goes on. -/
theorem KeepsAccount.advance_answered (sure : reliable) {script : Script Query Failure Result}
    {effects : List (Effect Change Entry)}
    (accounts : KeepsAccount machine describes reliable script effects)
    (moment : Moment) (state : State) :
    KeepsAccount machine describes reliable
      (Scripts.advance machine moment state .answered script).2.1
      (effects ++ (Scripts.advance machine moment state .answered script).2.2) := by
  cases script with
  | done result =>
      simp only [Scripts.advance, List.append_nil]
      exact accounts
  | ask query next =>
      cases executed : machine.exec moment state query with
      | mk outcome after =>
          simp only [Scripts.advance, executed]
          cases outcome with
          | error failure =>
              rw [List.append_nil]
              exact accounts.2.1 sure ⟨moment, state, failure, after, executed⟩
          | ok answer => exact accounts.2.2 answer ⟨moment, state, after, executed⟩

section

variable {state : State} {scripts : Nat -> Script Query Failure Result} {index : Nat}

/-- A script that accounts for its changes does so in every interleaving, until
it fails. -/
theorem KeepsAccount.after
    (accounts : KeepsAccount machine describes reliable (scripts index) [])
    (turns : List (Turn Moment Failure Other)) :
    Party.Accounts machine describes reliable
      ((Shared.after machine meanwhile state scripts turns).parties index) := by
  apply @Shared.party_invariant _ _ _ _ _ _ _ _ machine meanwhile _ (fun _ => True)
  · intro moment state fate party _ kept
    cases kept with
    | goesOn keeps => exact keeps.advance moment state fate
    | @failed failure effects described =>
        simp only [Scripts.advance, List.append_nil]
        exact .failed described
  · exact .goesOn accounts
  · exact fun _ _ _ => trivial

/-- It does not fail where its statements are answered and reliable. -/
theorem KeepsAccount.after_answered (sure : reliable)
    (accounts : KeepsAccount machine describes reliable (scripts index) [])
    {turns : List (Turn Moment Failure Other)}
    (answered : forall moment fate, .own index moment fate ∈ turns -> fate = .answered) :
    KeepsAccount machine describes reliable
      ((Shared.after machine meanwhile state scripts turns).parties index).script
      ((Shared.after machine meanwhile state scripts turns).parties index).effects := by
  apply @Shared.party_invariant _ _ _ _ _ _ _ _ machine meanwhile
    (fun party => KeepsAccount machine describes reliable party.script party.effects)
    (fun fate => fate = .answered)
  · rintro moment state fate party rfl kept
    exact kept.advance_answered sure moment state
  · exact accounts
  · exact answered

theorem Party.Accounts.described {party : Party Query Failure Result Change Entry}
    (accounts : party.Accounts machine describes reliable)
    (recorded : Effect.records party.effects ≠ []) : AccountedFor describes party.effects := by
  cases accounts with
  | goesOn keeps => exact keeps.accountedFor_of_records recorded
  | failed described => exact described recorded

/-- A party whose script has returned has accounted for its changes. -/
theorem Party.Accounts.returned {party : Party Query Failure Result Change Entry}
    (accounts : party.Accounts machine describes reliable) {result : Result}
    (isDone : party.script = .done (.ok result)) : AccountedFor describes party.effects := by
  cases accounts with
  | goesOn keeps =>
      dsimp only at isDone
      rw [isDone] at keeps
      exact keeps
  | failed described => cases isDone

end

end

end Scripts
