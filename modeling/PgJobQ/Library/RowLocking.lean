import Mathlib.Data.List.Sort
import Mathlib.Logic.Function.Basic
import PgJobQ.Library.Runs
import PgJobQ.Library.UniqueRows

/-!
# Updates under row locks

A transaction that updates a table at the READ COMMITTED level goes through
three phases.  It scans a snapshot for candidates, it visits them in order and
locks those that still satisfy its predicate, and it updates the rows it has
locked and commits.  A candidate that is locked is passed over or waited for.
Any number of transactions interleave their phases.

The snapshot may be stale when a candidate is visited.  What a transaction can
rely on is the re-check together with the lock: a locked row is the latest
version, satisfies the predicate, and stays as it is until the holder commits.
So the committed changes of one row form a path of versions, and a statement
about paths decides every question of who may follow whom.
-/

namespace RowLocking

open UniqueRows

universe u v w

variable {Row : Type u} {Key : Type v} {Tag : Type w}

/-- An update as issued: its predicate, the order in which it locks, how many
rows it takes, and what it does with a locked candidate and with each row. -/
structure Update (key : Row -> Key) where
  selects : Row -> Bool
  order : Row -> Row -> Bool
  limit : Option Nat
  skipsLocked : Bool
  set : Row -> Row
  keepsKey : forall row, key (set row) = key row

/-- A row lock, with the version of the row that was locked. -/
structure Lock (Row : Type u) where
  holder : Nat
  row : Row

/-- An open transaction and the candidates it has not visited yet. -/
structure Txn (Tag : Type w) (Key : Type v) where
  tag : Tag
  remaining : List Key

/-- A row before and after an update. -/
structure Change (Row : Type u) where
  before : Row
  after : Row

/-- A committed transaction: the versions it locked and the changes it made. -/
structure Commit (Tag : Type w) (Row : Type u) where
  tag : Tag
  locked : List Row
  changes : List (Change Row)

/-- The latest committed version of each row, the lock table, the open
transactions, and the commits made so far, newest first. -/
structure State (Tag : Type w) (Row : Type u) (Key : Type v) where
  table : List Row
  locks : List (Lock Row)
  opened : Nat -> Option (Txn Tag Key)
  log : List (Commit Tag Row)

inductive Label (Tag : Type w) where
  | start (txn : Nat) (tag : Tag)
  | visit (txn : Nat)
  | commit (txn : Nat)
  | rollback (txn : Nat)

namespace Update

/-- The candidates of a snapshot, in locking order. -/
def scan {key : Row -> Key} (update : Update key) (snapshot : List Row) : List Key :=
  ((snapshot.filter update.selects).insertionSort (fun first second => update.order first second)).map
    key

/-- As many rows are locked as the update asks for. -/
def full {key : Row -> Key} (update : Update key) (locked : List Row) : Bool :=
  match update.limit with
  | some limit => decide (limit ≤ locked.length)
  | none => false

end Update

namespace State

/-- The rows a transaction has locked, in locking order. -/
def held (state : State Tag Row Key) (txn : Nat) : List Row :=
  (state.locks.filter (fun lock => lock.holder = txn)).map (·.row)

def isLocked [DecidableEq Key] (key : Row -> Key) (state : State Tag Row Key) (wanted : Key) :
    Bool :=
  state.locks.any (fun lock => key lock.row = wanted)

/-- End a transaction and give up its locks. -/
def release (state : State Tag Row Key) (txn : Nat) : State Tag Row Key :=
  { state with
    locks := state.locks.filter (fun lock => lock.holder ≠ txn)
    opened := Function.update state.opened txn none }

/-- Strike the candidate just visited. -/
def advance (state : State Tag Row Key) (txn : Nat) (tag : Tag) (rest : List Key) :
    State Tag Row Key :=
  { state with opened := Function.update state.opened txn (some ⟨tag, rest⟩) }

end State

/-! ## Locks -/

section Locks

variable {key : Row -> Key} {update : Tag -> Update key}

/-- A row has one holder, the holder is open and its predicate holds of the
version in the table, and no transaction holds more rows than it asked for. -/
structure WellLocked (update : Tag -> Update key) (state : State Tag Row Key) : Prop where
  unique : (state.table.map key).Nodup
  exclusive : (state.locks.map (fun lock => key lock.row)).Nodup
  current : forall lock, lock ∈ state.locks -> lock.row ∈ state.table ∧
    Exists fun txn : Txn Tag Key => state.opened lock.holder = some txn ∧
      (update txn.tag).selects lock.row = true
  limited : forall holder txn limit, state.opened holder = some txn ->
    (update txn.tag).limit = some limit -> (state.held holder).length ≤ limit

theorem mem_held {state : State Tag Row Key} {txn : Nat} {row : Row} :
    row ∈ state.held txn <->
      Exists fun lock : Lock Row => lock ∈ state.locks ∧ lock.holder = txn ∧ lock.row = row := by
  simp only [State.held, List.mem_map, List.mem_filter, decide_eq_true_eq, and_assoc]

/-- Releasing one transaction leaves what the others hold. -/
theorem held_release_of_ne {state : State Tag Row Key} {txn other : Nat} (different : other ≠ txn) :
    (state.release txn).held other = state.held other := by
  unfold State.held State.release
  rw [List.filter_filter]
  congr 1
  apply List.filter_congr
  intro lock _
  by_cases mine : lock.holder = other
  · simp [mine, different]
  · simp [mine]

theorem WellLocked.same_lock {state : State Tag Row Key} (locked : WellLocked update state)
    {first second : Lock Row} (firstMem : first ∈ state.locks) (secondMem : second ∈ state.locks)
    (same : key first.row = key second.row) : first = second :=
  List.inj_on_of_nodup_map locked.exclusive firstMem secondMem same

theorem WellLocked.same_row {state : State Tag Row Key} (locked : WellLocked update state)
    {first second : Row} (firstMem : first ∈ state.table) (secondMem : second ∈ state.table)
    (same : key first = key second) : first = second :=
  List.inj_on_of_nodup_map locked.unique firstMem secondMem same

theorem WellLocked.held_of_none {state : State Tag Row Key} (locked : WellLocked update state)
    {txn : Nat} (idle : state.opened txn = none) : state.held txn = [] := by
  apply List.eq_nil_iff_forall_not_mem.mpr
  intro row holds
  rcases mem_held.mp holds with ⟨lock, member, rfl, _⟩
  rcases (locked.current lock member).2 with ⟨txn, active, _⟩
  rw [idle] at active
  cases active

theorem WellLocked.release {state : State Tag Row Key} (locked : WellLocked update state)
    (txn : Nat) : WellLocked update (state.release txn) where
  unique := locked.unique
  exclusive := (List.Sublist.map _ List.filter_sublist).nodup locked.exclusive
  current := by
    intro lock member
    have kept := List.mem_filter.mp member
    have different : lock.holder ≠ txn := by simpa using kept.2
    have before := locked.current lock kept.1
    exact ⟨before.1, by simpa only [State.release, Function.update_of_ne different] using before.2⟩
  limited := by
    intro holder opened limit active asked
    by_cases same : holder = txn
    · subst same
      simp [State.release] at active
    · rw [held_release_of_ne same]
      simp only [State.release, Function.update_of_ne same] at active
      exact locked.limited holder opened limit active asked

/-- A transaction that is open with the same update may strike candidates. -/
theorem WellLocked.advance {state : State Tag Row Key} (locked : WellLocked update state)
    {txn : Nat} {tag : Tag} {rest : List Key}
    (continues : state.opened txn = none ∨
      Exists fun before : List Key => state.opened txn = some ⟨tag, before⟩) :
    WellLocked update (state.advance txn tag rest) where
  unique := locked.unique
  exclusive := locked.exclusive
  current := by
    intro lock member
    have before := locked.current lock member
    refine ⟨before.1, ?_⟩
    rcases before.2 with ⟨opened, active, selected⟩
    by_cases same : lock.holder = txn
    · rcases continues with idle | ⟨candidates, running⟩
      · rw [same, idle] at active
        cases active
      · rw [same, running] at active
        cases active
        exact ⟨⟨tag, rest⟩, by simp [State.advance, same], selected⟩
    · exact ⟨opened, by simpa only [State.advance, Function.update_of_ne same] using active, selected⟩
  limited := by
    intro holder opened limit active asked
    change (state.held holder).length ≤ limit
    by_cases same : holder = txn
    · subst same
      simp only [State.advance, Function.update_self] at active
      cases active
      rcases continues with idle | ⟨candidates, running⟩
      · rw [locked.held_of_none idle]
        exact Nat.zero_le limit
      · exact locked.limited holder _ limit running asked
    · simp only [State.advance, Function.update_of_ne same] at active
      exact locked.limited holder opened limit active asked

end Locks

section Machine

variable [DecidableEq Key] {key : Row -> Key} (update : Tag -> Update key)
  (accepts : List Row -> Bool)

/-- The table after a transaction has updated the rows it holds. -/
def rewritten (state : State Tag Row Key) (txn : Nat) (tag : Tag) : List Row :=
  state.table.map (fun row =>
    if (state.held txn).any (fun locked => key locked = key row) then (update tag).set row else row)

/-- The changes of the latest versions of the rows a transaction holds. -/
def changes (state : State Tag Row Key) (txn : Nat) (tag : Tag) : List (Change Row) :=
  (state.held txn).filterMap (fun locked =>
    (state.table.find? (fun row => key row = key locked)).map
      (fun latest => ⟨latest, (update tag).set latest⟩))

/-- One phase of one transaction.  A label that is not enabled, such as a visit
to a candidate the transaction has to wait for, leaves the state alone. -/
def step (state : State Tag Row Key) : Label Tag -> State Tag Row Key
  | .start txn tag =>
      match state.opened txn with
      | some _ => state
      | none => state.advance txn tag ((update tag).scan state.table)
  | .visit txn =>
      match state.opened txn with
      | none => state
      | some ⟨_, []⟩ => state
      | some ⟨tag, candidate :: rest⟩ =>
          if (update tag).full (state.held txn) then state
          else if state.isLocked key candidate then
            if (update tag).skipsLocked then state.advance txn tag rest else state
          else
            match state.table.find? (fun row => key row = candidate && (update tag).selects row) with
            | none => state.advance txn tag rest
            | some row =>
                { state.advance txn tag rest with locks := state.locks ++ [⟨txn, row⟩] }
  | .commit txn =>
      match state.opened txn with
      | none => state
      | some ⟨tag, remaining⟩ =>
          if remaining.isEmpty || (update tag).full (state.held txn) then
            if accepts (rewritten update state txn tag) then
              { state.release txn with
                table := rewritten update state txn tag
                log := ⟨tag, state.held txn, changes update state txn tag⟩ :: state.log }
            else state.release txn
          else state
  | .rollback txn => state.release txn

/-- A table before any transaction. -/
def initial (table : List Row) : State Tag Row Key := ⟨table, [], fun _ => none, []⟩

/-! ## What one phase does -/

/-- The phases as they come out, branch by branch. -/
inductive Phase (state : State Tag Row Key) : State Tag Row Key -> Prop where
  | stays : Phase state state
  | starts {txn tag} (idle : state.opened txn = none) :
      Phase state (state.advance txn tag ((update tag).scan state.table))
  | strikes {txn tag candidate rest} (active : state.opened txn = some ⟨tag, candidate :: rest⟩) :
      Phase state (state.advance txn tag rest)
  | locks {txn tag rest row} (active : state.opened txn = some ⟨tag, key row :: rest⟩)
      (room : (update tag).full (state.held txn) = false)
      (unlocked : state.isLocked key (key row) = false) (latest : row ∈ state.table)
      (selected : (update tag).selects row = true) :
      Phase state { state.advance txn tag rest with locks := state.locks ++ [⟨txn, row⟩] }
  | commits {txn tag remaining} (active : state.opened txn = some ⟨tag, remaining⟩)
      (accepted : accepts (rewritten update state txn tag) = true) :
      Phase state { state.release txn with
        table := rewritten update state txn tag
        log := ⟨tag, state.held txn, changes update state txn tag⟩ :: state.log }
  | ends {txn} : Phase state (state.release txn)

theorem phase_of_step (state : State Tag Row Key) (label : Label Tag) :
    Phase update accepts state (step update accepts state label) := by
  cases label with
  | start txn tag =>
      unfold step
      dsimp only
      split
      · exact .stays
      · rename_i idle
        exact .starts idle
  | rollback txn => exact .ends
  | visit txn =>
      unfold step
      dsimp only
      split
      · exact .stays
      · exact .stays
      · rename_i tag candidate rest active
        split
        · exact .stays
        · rename_i room
          split
          · split
            · exact .strikes active
            · exact .stays
          · rename_i unlocked
            split
            · exact .strikes active
            · rename_i row found
              have chosen := List.find?_some found
              simp only [Bool.and_eq_true, decide_eq_true_eq] at chosen
              rw [← chosen.1] at active unlocked
              exact .locks active (Bool.eq_false_iff.mpr room) (Bool.eq_false_iff.mpr unlocked)
                (List.mem_of_find?_eq_some found) chosen.2
  | commit txn =>
      unfold step
      dsimp only
      split
      · exact .stays
      · rename_i tag remaining active
        split
        · split
          · rename_i accepted
            exact .commits active accepted
          · exact .ends
        · exact .stays

variable {update} {accepts}

theorem WellLocked.lock {state : State Tag Row Key} (locked : WellLocked update state) {txn : Nat}
    {tag : Tag} {rest : List Key} {row : Row}
    (active : state.opened txn = some ⟨tag, key row :: rest⟩)
    (room : (update tag).full (state.held txn) = false)
    (unlocked : state.isLocked key (key row) = false) (latest : row ∈ state.table)
    (selected : (update tag).selects row = true) : WellLocked update
      { state.advance txn tag rest with locks := state.locks ++ [⟨txn, row⟩] } := by
  have struck : WellLocked update (state.advance txn tag rest) :=
    locked.advance (Or.inr ⟨_, active⟩)
  have apart : forall lock, lock ∈ state.locks -> key lock.row ≠ key row := by
    simpa [State.isLocked] using unlocked
  refine ⟨locked.unique, ?_, ?_, ?_⟩
  · simp only [List.map_append, List.map_cons, List.map_nil]
    refine List.nodup_append.mpr ⟨locked.exclusive, List.nodup_singleton _, ?_⟩
    intro taken takenMem new newMem
    rcases List.mem_map.mp takenMem with ⟨lock, member, rfl⟩
    rw [List.mem_singleton.mp newMem]
    exact apart lock member
  · intro lock member
    rcases List.mem_append.mp member with earlier | added
    · exact struck.current lock earlier
    · rw [List.mem_singleton.mp added]
      exact ⟨latest, ⟨tag, rest⟩, by simp [State.advance], selected⟩
  · intro holder opened limit running asked
    by_cases same : holder = txn
    · subst same
      simp only [State.advance, Function.update_self] at running
      cases running
      have below : (state.held holder).length < limit := by
        simpa [Update.full, asked] using room
      have longer := Nat.succ_le_of_lt below
      simpa [State.held, List.filter_append] using longer
    · have others : State.held
          { state.advance txn tag rest with locks := state.locks ++ [⟨txn, row⟩] } holder =
            state.held holder := by
        simp [State.held, List.filter_append, Ne.symm same]
      rw [others]
      exact struck.limited holder opened limit running asked

/-! ## Committing -/

/-- A row that the transaction holds gets its update, every other row stays. -/
theorem mem_rewritten_of_not_held {state : State Tag Row Key} {txn : Nat} {tag : Tag} {row : Row}
    (member : row ∈ state.table)
    (free : forall locked, locked ∈ state.held txn -> key locked ≠ key row) :
    row ∈ rewritten update state txn tag := by
  refine List.mem_map.mpr ⟨row, member, if_neg ?_⟩
  simpa using free

theorem map_key_rewritten (state : State Tag Row Key) (txn : Nat) (tag : Tag) :
    (rewritten update state txn tag).map key = state.table.map key := by
  unfold rewritten
  rw [List.map_map]
  apply List.map_congr_left
  intro row _
  simp only [Function.comp_apply]
  split
  · exact (update tag).keepsKey row
  · rfl

theorem WellLocked.commit {state : State Tag Row Key} (locked : WellLocked update state)
    (txn : Nat) (tag : Tag) (log : List (Commit Tag Row)) : WellLocked update
      { state.release txn with table := rewritten update state txn tag, log := log } := by
  have released := locked.release txn
  refine ⟨?_, released.exclusive, ?_, released.limited⟩
  · change ((rewritten update state txn tag).map key).Nodup
    rw [map_key_rewritten]
    exact locked.unique
  · intro lock member
    have kept := List.mem_filter.mp member
    refine ⟨mem_rewritten_of_not_held (locked.current lock kept.1).1 ?_,
      (released.current lock member).2⟩
    intro held holds same
    rcases mem_held.mp holds with ⟨other, otherMem, holder, rfl⟩
    have different : lock.holder ≠ txn := by simpa using kept.2
    rw [locked.same_lock otherMem kept.1 same] at holder
    exact different holder

/-- The invariant is kept by every phase. -/
theorem WellLocked.step {state : State Tag Row Key} (locked : WellLocked update state)
    (label : Label Tag) : WellLocked update (RowLocking.step update accepts state label) := by
  have phase := phase_of_step update accepts state label
  generalize RowLocking.step update accepts state label = next at phase
  cases phase with
  | stays => exact locked
  | starts idle => exact locked.advance (Or.inl idle)
  | strikes active => exact locked.advance (Or.inr ⟨_, active⟩)
  | locks active room unlocked latest selected =>
      exact locked.lock active room unlocked latest selected
  | commits active accepted => exact locked.commit _ _ _
  | ends => exact locked.release _

/-- What a transaction locked is what it changes: the version it locked is
still the latest one. -/
theorem WellLocked.changes_eq {state : State Tag Row Key} (locked : WellLocked update state)
    (txn : Nat) (tag : Tag) : changes update state txn tag =
      (state.held txn).map (fun row => ⟨row, (update tag).set row⟩) := by
  unfold changes
  rw [← List.filterMap_eq_map]
  apply List.filterMap_congr
  intro row holds
  rcases mem_held.mp holds with ⟨lock, member, _, rfl⟩
  have latest := (locked.current lock member).1
  have found : state.table.find? (fun other => key other = key lock.row) = some lock.row := by
    cases result : state.table.find? (fun other => key other = key lock.row) with
    | none => exact absurd (List.find?_eq_none.mp result lock.row latest) (by simp)
    | some other =>
        have same : key other = key lock.row := by simpa using List.find?_some result
        rw [locked.same_row (List.mem_of_find?_eq_some result) latest same]
  rw [found]
  rfl

end Machine

/-! ## Paths of versions -/

/-- The changes, newest first, lead from one version of a row to another. -/
def Path (start : Row) : List (Change Row) -> Row -> Prop
  | [], finish => start = finish
  | change :: earlier, finish => change.after = finish ∧ Path start earlier change.before

theorem Path.append {start finish : Row} {later earlier : List (Change Row)} :
    Path start (later ++ earlier) finish <->
      Exists fun middle : Row => Path start earlier middle ∧ Path middle later finish := by
  induction later generalizing finish with
  | nil =>
      constructor
      · exact fun path => ⟨finish, path, rfl⟩
      · rintro ⟨middle, path, rfl⟩
        exact path
  | cons change later inductionHypothesis =>
      constructor
      · rintro ⟨last, path⟩
        rcases inductionHypothesis.mp path with ⟨middle, first, second⟩
        exact ⟨middle, first, last, second⟩
      · rintro ⟨middle, first, last, second⟩
        exact ⟨last, inductionHypothesis.mpr ⟨middle, first, second⟩⟩

/-- Each change of a path is followed by another one, or ends the path. -/
theorem Path.followed {start finish : Row} {changes : List (Change Row)}
    (path : Path start changes finish) {change : Change Row} (member : change ∈ changes) :
    change.after = finish ∨
      Exists fun next : Change Row => next ∈ changes ∧ next.before = change.after := by
  induction changes generalizing finish with
  | nil => cases member
  | cons latest earlier inductionHypothesis =>
      rcases List.mem_cons.mp member with rfl | later
      · exact Or.inl path.1
      · rcases inductionHypothesis path.2 later with last | ⟨next, nextMem, follows⟩
        · exact Or.inr ⟨latest, List.mem_cons_self, last.symm⟩
        · exact Or.inr ⟨next, List.mem_cons_of_mem latest nextMem, follows⟩

/-- A path between two versions that differ in a property changes it on the
way. -/
theorem Path.crosses {start finish : Row} {changes : List (Change Row)} {holds : Row -> Prop}
    (path : Path start changes finish) (notYet : Not (holds start)) (atLast : holds finish) :
    Exists fun change : Change Row => change ∈ changes ∧ Not (holds change.before) ∧
      holds change.after := by
  induction changes generalizing finish with
  | nil => exact absurd (path ▸ atLast) notYet
  | cons latest earlier inductionHypothesis =>
      rcases path with ⟨rfl, rest⟩
      by_cases before : holds latest.before
      · rcases inductionHypothesis rest before with ⟨change, member, crossing⟩
        exact ⟨change, List.mem_cons_of_mem latest member, crossing⟩
      · exact ⟨latest, List.mem_cons_self, before, atLast⟩

/-! ## The log -/

section Log

variable [DecidableEq Key] {key : Row -> Key} {update : Tag -> Update key}
  {accepts : List Row -> Bool}

/-- The committed changes of the row with this key, newest first. -/
def changesOf (key : Row -> Key) (wanted : Key) (log : List (Commit Tag Row)) :
    List (Change Row) :=
  log.flatMap (fun commit => commit.changes.filter (fun change => key change.before = wanted))

/-- A commit changed exactly the rows it had locked, each once, at most as many
as it asked for, and each satisfied the predicate in the version it locked. -/
structure Commit.Sound (update : Tag -> Update key) (commit : Commit Tag Row) : Prop where
  changed : commit.changes =
    commit.locked.map (fun row => ⟨row, (update commit.tag).set row⟩)
  once : (commit.locked.map key).Nodup
  limited : forall limit, (update commit.tag).limit = some limit -> commit.locked.length ≤ limit
  selected : forall row, row ∈ commit.locked -> (update commit.tag).selects row = true

/-- Every commit of the log is sound, and the changes of each row lead to its
version in the table. -/
structure WellLogged (update : Tag -> Update key) (state : State Tag Row Key) : Prop where
  locked : WellLocked update state
  sound : forall commit, commit ∈ state.log -> commit.Sound update
  stored : forall commit, commit ∈ state.log -> forall change, change ∈ commit.changes ->
    key change.before ∈ state.table.map key
  path : forall row, row ∈ state.table -> Exists fun start : Row =>
    Path start (changesOf key (key row) state.log) row

theorem WellLogged.initial {table : List Row} (unique : (table.map key).Nodup) :
    WellLogged update (RowLocking.initial table) where
  locked := by
    refine ⟨unique, List.nodup_nil, ?_, ?_⟩
    · exact fun lock member => absurd member List.not_mem_nil
    · exact fun holder txn limit active => by cases active
  sound := fun commit member => absurd member List.not_mem_nil
  stored := fun commit member => absurd member List.not_mem_nil
  path := fun row _ => ⟨row, rfl⟩

/-- The commit of a transaction that held its locks is sound. -/
theorem WellLocked.commit_sound {state : State Tag Row Key} (locked : WellLocked update state)
    {txn : Nat} {tag : Tag} {remaining : List Key}
    (active : state.opened txn = some ⟨tag, remaining⟩) : Commit.Sound update
      ⟨tag, state.held txn, changes update state txn tag⟩ where
  changed := locked.changes_eq txn tag
  once := by
    unfold State.held
    rw [List.map_map]
    exact (List.Sublist.map _ List.filter_sublist).nodup locked.exclusive
  limited := fun limit asked => locked.limited txn _ limit active asked
  selected := by
    intro row holds
    rcases mem_held.mp holds with ⟨lock, member, rfl, rfl⟩
    rcases (locked.current lock member).2 with ⟨opened, running, selected⟩
    rw [active] at running
    cases running
    exact selected

theorem changesOf_cons (wanted : Key) (commit : Commit Tag Row) (log : List (Commit Tag Row)) :
    changesOf key wanted (commit :: log) =
      commit.changes.filter (fun change => key change.before = wanted) ++
        changesOf key wanted log := rfl

theorem Commit.Sound.changesOf_held {commit : Commit Tag Row} (sound : commit.Sound update)
    {row : Row} (holds : row ∈ commit.locked) :
    commit.changes.filter (fun change => key change.before = key row) =
      [⟨row, (update commit.tag).set row⟩] := by
  have unique : UniqueOn (fun other => some (key other)) commit.locked := by
    simpa only [UniqueOn, List.filterMap_eq_map'] using sound.once
  have alone := unique.filter_eq_singleton holds rfl
  simp only [Option.some.injEq] at alone
  rw [sound.changed, List.filter_map]
  exact congrArg (List.map _) alone

theorem Commit.Sound.changesOf_change {commit : Commit Tag Row} (sound : commit.Sound update)
    {change : Change Row} (member : change ∈ commit.changes) :
    commit.changes.filter (fun other => key other.before = key change.before) = [change] := by
  have listed := member
  rw [sound.changed] at listed
  rcases List.mem_map.mp listed with ⟨row, holds, rfl⟩
  exact sound.changesOf_held holds

theorem Commit.Sound.changesOf_not_held {commit : Commit Tag Row} (sound : commit.Sound update)
    {wanted : Key} (free : forall row, row ∈ commit.locked -> key row ≠ wanted) :
    commit.changes.filter (fun change => key change.before = wanted) = [] := by
  apply List.filter_eq_nil_iff.mpr
  intro change member
  rw [sound.changed] at member
  rcases List.mem_map.mp member with ⟨row, holds, rfl⟩
  simpa using free row holds

theorem WellLogged.commit {state : State Tag Row Key} (logged : WellLogged update state)
    {txn : Nat} {tag : Tag} {remaining : List Key}
    (active : state.opened txn = some ⟨tag, remaining⟩) : WellLogged update
      { state.release txn with
        table := rewritten update state txn tag
        log := ⟨tag, state.held txn, changes update state txn tag⟩ :: state.log } := by
  have sound := logged.locked.commit_sound active
  have heldMem : forall row, row ∈ state.held txn -> row ∈ state.table := by
    intro row holds
    rcases mem_held.mp holds with ⟨lock, member, _, rfl⟩
    exact (logged.locked.current lock member).1
  refine ⟨logged.locked.commit txn tag _, ?_, ?_, ?_⟩
  · intro commit member
    rcases List.mem_cons.mp member with rfl | earlier
    · exact sound
    · exact logged.sound commit earlier
  · intro commit member change changed
    change key change.before ∈ (rewritten update state txn tag).map key
    rw [map_key_rewritten]
    rcases List.mem_cons.mp member with rfl | earlier
    · rw [sound.changed] at changed
      rcases List.mem_map.mp changed with ⟨row, holds, rfl⟩
      exact List.mem_map_of_mem (heldMem row holds)
    · exact logged.stored commit earlier change changed
  · intro row member
    rcases List.mem_map.mp member with ⟨old, oldMem, rfl⟩
    rcases logged.path old oldMem with ⟨start, path⟩
    refine ⟨start, ?_⟩
    dsimp only
    split
    · rename_i taken
      rcases List.any_eq_true.mp taken with ⟨row, holds, same⟩
      rw [logged.locked.same_row (heldMem row holds) oldMem (of_decide_eq_true same)] at holds
      rw [(update tag).keepsKey, changesOf_cons, sound.changesOf_held holds]
      exact ⟨rfl, path⟩
    · rename_i free
      rw [changesOf_cons, sound.changesOf_not_held (by simpa using free)]
      exact path

theorem WellLogged.step {state : State Tag Row Key} (logged : WellLogged update state)
    (label : Label Tag) : WellLogged update (RowLocking.step update accepts state label) := by
  have phase := phase_of_step update accepts state label
  have locked : WellLocked update (RowLocking.step update accepts state label) :=
    logged.locked.step label
  generalize RowLocking.step update accepts state label = next at phase locked
  cases phase with
  | commits active accepted => exact logged.commit active
  | stays => exact logged
  | starts idle => exact ⟨locked, logged.sound, logged.stored, logged.path⟩
  | strikes active => exact ⟨locked, logged.sound, logged.stored, logged.path⟩
  | locks active room unlocked latest selected =>
      exact ⟨locked, logged.sound, logged.stored, logged.path⟩
  | ends => exact ⟨locked, logged.sound, logged.stored, logged.path⟩

/-- Between two commits that changed the same row lies a path of changes from
what the first made of it to what the second found. -/
theorem WellLogged.path_between {state : State Tag Row Key} (logged : WellLogged update state)
    {newer middle older : List (Commit Tag Row)} {second first : Commit Tag Row}
    (split : state.log = newer ++ second :: (middle ++ first :: older))
    {made found : Change Row} (madeMem : made ∈ first.changes) (foundMem : found ∈ second.changes)
    (same : key made.before = key found.before) :
    Path made.after (changesOf key (key made.before) middle) found.before := by
  have firstMem : first ∈ state.log := by simp [split]
  have secondMem : second ∈ state.log := by simp [split]
  rcases List.mem_map.mp (logged.stored first firstMem made madeMem) with ⟨row, rowMem, rowKey⟩
  rcases logged.path row rowMem with ⟨start, path⟩
  have laterOnes : changesOf key (key row) state.log =
      changesOf key (key row) newer ++ ([found] ++
        (changesOf key (key row) middle ++ ([made] ++ changesOf key (key row) older))) := by
    rw [← (logged.sound second secondMem).changesOf_change foundMem, ← same,
      ← (logged.sound first firstMem).changesOf_change madeMem, ← rowKey, split]
    simp only [changesOf, List.flatMap_append, List.flatMap_cons]
  rw [laterOnes] at path
  rcases Path.append.mp path with ⟨_, atFound, _⟩
  have before : Path start (changesOf key (key row) middle ++ ([made] ++
    changesOf key (key row) older)) found.before := atFound.2
  rcases Path.append.mp before with ⟨_, atMade, between⟩
  have afterMade := atMade.1
  rw [← rowKey, afterMade]
  exact between

theorem mem_changesOf {wanted : Key} {log : List (Commit Tag Row)} {change : Change Row} :
    change ∈ changesOf key wanted log <->
      Exists fun commit : Commit Tag Row => commit ∈ log ∧ change ∈ commit.changes ∧
        key change.before = wanted := by
  simp only [changesOf, List.mem_flatMap, List.mem_filter, decide_eq_true_eq]

end Log

end RowLocking
