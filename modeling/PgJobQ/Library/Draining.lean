import PgJobQ.Library.RowLocking

/-!
# Draining a table under row locks

A transaction that takes rows which are due, and skips locked ones, passes over
a due row only while another transaction holds it, and that one changes it when
it commits.  So once a transaction has visited all of its candidates, every row
that was due and has not been changed is locked, and stays so until it is
changed.  No transaction is rolled back here: it would give up the lock and
leave the row as it was.

Each commit of a transaction that leaves its rows not due makes as many of them
fewer, which bounds how often a table can be drained.
-/

namespace RowLocking

universe u v w

variable {Row : Type u} {Key : Type v} {Tag : Type w}

variable {key : Row -> Key} {update : Tag -> Update key} {accepts : List Row -> Bool}
  {state : State Tag Row Key}

/-! ## The phases apart -/

theorem opened_of_advance {txn other : Nat} {tag : Tag} {before rest : List Key}
    {opened : Txn Tag Key} (running : state.opened other = some ⟨tag, before⟩)
    (active : (state.advance other tag rest).opened txn = some opened) :
    Exists fun earlier : Txn Tag Key => state.opened txn = some earlier ∧ earlier.tag = opened.tag := by
  by_cases same : txn = other
  · subst same
    simp only [State.advance, Function.update_self, Option.some.injEq] at active
    subst active
    exact ⟨_, running, rfl⟩
  · simp only [State.advance, Function.update_of_ne same] at active
    exact ⟨opened, active, rfl⟩

theorem opened_of_release {txn other : Nat} {opened : Txn Tag Key}
    (active : (state.release other).opened txn = some opened) :
    txn ≠ other ∧ state.opened txn = some opened := by
  by_cases same : txn = other
  · subst same
    simp only [State.release, Function.update_self, reduceCtorEq] at active
  · simp only [State.release, Function.update_of_ne same] at active
    exact ⟨same, active⟩

variable [DecidableEq Key]

/-- The state after a transaction has committed. -/
def State.committed (update : Tag -> Update key) (state : State Tag Row Key) (txn : Nat) (tag : Tag) :
    State Tag Row Key :=
  { state.release txn with
    table := rewritten update state txn tag
    log := ⟨tag, state.held txn, changes update state txn tag⟩ :: state.log }

/-- The state after a transaction has scanned the table. -/
def State.begun (update : Tag -> Update key) (state : State Tag Row Key) (txn : Nat) (tag : Tag) :
    State Tag Row Key :=
  state.advance txn tag ((update tag).scan state.table)

theorem start_of_idle {txn : Nat} {tag : Tag} (idle : state.opened txn = none) :
    step update accepts state (.start txn tag) = state.begun update txn tag := by
  simp only [step, idle, State.begun]

/-- A visit changes no row, and gives up no lock. -/
theorem step_visit (txn : Nat) :
    (step update accepts state (.visit txn)).table = state.table ∧
      (step update accepts state (.visit txn)).log = state.log ∧
        forall lock, lock ∈ state.locks -> lock ∈ (step update accepts state (.visit txn)).locks := by
  unfold step
  dsimp only
  split
  · exact ⟨rfl, rfl, fun _ member => member⟩
  · exact ⟨rfl, rfl, fun _ member => member⟩
  · split
    · exact ⟨rfl, rfl, fun _ member => member⟩
    · split
      · split <;> exact ⟨rfl, rfl, fun _ member => member⟩
      · split
        · exact ⟨rfl, rfl, fun _ member => member⟩
        · exact ⟨rfl, rfl, fun _ member => List.mem_append_left _ member⟩

/-- A visit leaves the candidates of the others. -/
theorem opened_visit_of_ne {txn other : Nat} (different : other ≠ txn) :
    (step update accepts state (.visit txn)).opened other = state.opened other := by
  unfold step
  dsimp only
  split
  · rfl
  · rfl
  · split
    · rfl
    · split
      · split
        · exact Function.update_of_ne different _ _
        · rfl
      · split <;> exact Function.update_of_ne different _ _

/-- A visit by a transaction that skips locked rows strikes a candidate: it is
locked, or its latest version is not selected, or it is locked now. -/
theorem visit_of_skips {txn : Nat} {tag : Tag} {candidate : Key} {rest : List Key}
    (active : state.opened txn = some ⟨tag, candidate :: rest⟩)
    (room : (update tag).full (state.held txn) = false)
    (skips : (update tag).skipsLocked = true) :
    (step update accepts state (.visit txn)).opened =
        Function.update state.opened txn (some ⟨tag, rest⟩) ∧
      ((step update accepts state (.visit txn)).isLocked key candidate = true ∨
        forall row, row ∈ state.table -> key row = candidate -> (update tag).selects row = false) := by
  simp only [step, active, room, skips, Bool.false_eq_true, if_false, if_true]
  by_cases taken : state.isLocked key candidate = true
  · rw [if_pos taken]
    exact ⟨rfl, Or.inl taken⟩
  · rw [if_neg taken]
    cases found : state.table.find? (fun row => key row = candidate && (update tag).selects row) with
    | none =>
        refine ⟨rfl, Or.inr fun row member same => ?_⟩
        have passed := List.find?_eq_none.mp found row member
        simpa [same] using passed
    | some row =>
        have chosen := List.find?_some found
        simp only [Bool.and_eq_true, decide_eq_true_eq] at chosen
        refine ⟨rfl, Or.inl ?_⟩
        simp [State.isLocked, chosen.1]

/-- A commit, of a transaction that has visited its candidates or holds as many
rows as it asked for. -/
theorem step_commit_cases {txn : Nat} (accepted : forall tag remaining,
      state.opened txn = some ⟨tag, remaining⟩ -> accepts (rewritten update state txn tag) = true) :
    step update accepts state (.commit txn) = state ∨
      Exists fun tag : Tag => Exists fun remaining : List Key =>
        state.opened txn = some ⟨tag, remaining⟩ ∧
          (remaining = [] ∨ (update tag).full (state.held txn) = true) ∧
            step update accepts state (.commit txn) = state.committed update txn tag := by
  cases active : state.opened txn with
  | none =>
      left
      simp only [step, active]
  | some opened =>
      rcases opened with ⟨tag, remaining⟩
      by_cases ready : (remaining.isEmpty || (update tag).full (state.held txn)) = true
      · right
        refine ⟨tag, remaining, rfl, ?_, ?_⟩
        · simpa only [Bool.or_eq_true, List.isEmpty_iff] using ready
        · simp only [step, active, ready, if_true, accepted tag remaining active, State.committed]
      · left
        simp only [step, active, ready, Bool.false_eq_true, if_false]

/-- A transaction is open with the tag it was started with. -/
theorem opened_of_step {label : Label Tag} {txn : Nat} {opened : Txn Tag Key}
    (active : (step update accepts state label).opened txn = some opened) :
    (Exists fun before : Txn Tag Key => state.opened txn = some before ∧ before.tag = opened.tag) ∨
      label = .start txn opened.tag := by
  cases label with
  | start other tag =>
      unfold step at active
      dsimp only at active
      split at active
      · exact Or.inl ⟨opened, active, rfl⟩
      · by_cases same : txn = other
        · subst same
          simp only [State.advance, Function.update_self, Option.some.injEq] at active
          subst active
          exact Or.inr rfl
        · simp only [State.advance, Function.update_of_ne same] at active
          exact Or.inl ⟨opened, active, rfl⟩
  | visit other =>
      left
      unfold step at active
      dsimp only at active
      split at active
      · exact ⟨opened, active, rfl⟩
      · exact ⟨opened, active, rfl⟩
      · rename_i tag candidate rest running
        split at active
        · exact ⟨opened, active, rfl⟩
        · split at active
          · split at active
            · exact opened_of_advance running active
            · exact ⟨opened, active, rfl⟩
          · split at active
            · exact opened_of_advance running active
            · exact @opened_of_advance _ _ _ _ _ _ _ _ rest _ running active
  | commit other =>
      left
      unfold step at active
      dsimp only at active
      split at active
      · exact ⟨opened, active, rfl⟩
      · split at active
        · split at active
          · exact ⟨opened, (opened_of_release active).2, rfl⟩
          · exact ⟨opened, (opened_of_release active).2, rfl⟩
        · exact ⟨opened, active, rfl⟩
  | rollback other => exact Or.inl ⟨opened, (opened_of_release active).2, rfl⟩

/-! ## Due rows -/

variable {due : Row -> Bool}

/-- No commit has changed the row. -/
def Untouched (key : Row -> Key) (state : State Tag Row Key) (row : Row) : Prop :=
  changesOf key (key row) state.log = []

/-- Every due row that is untouched is locked, or among those still to be
visited. -/
def Covered (key : Row -> Key) (due : Row -> Bool) (toVisit : List Key) (state : State Tag Row Key) :
    Prop :=
  forall row, row ∈ state.table -> due row = true -> Untouched key state row ->
    state.isLocked key (key row) = true ∨ key row ∈ toVisit

theorem isLocked_of_subset {next : State Tag Row Key} {wanted : Key}
    (more : forall lock, lock ∈ state.locks -> lock ∈ next.locks)
    (taken : state.isLocked key wanted = true) : next.isLocked key wanted = true := by
  rcases List.any_eq_true.mp taken with ⟨lock, member, same⟩
  exact List.any_eq_true.mpr ⟨lock, more lock member, same⟩

theorem Covered.grow {next : State Tag Row Key} {toVisit : List Key}
    (covered : Covered key due toVisit state) (sameTable : next.table = state.table)
    (sameLog : next.log = state.log) (more : forall lock, lock ∈ state.locks -> lock ∈ next.locks) :
    Covered key due toVisit next := by
  intro row member isDue untouched
  rw [sameTable] at member
  rw [Untouched, sameLog] at untouched
  exact (covered row member isDue untouched).imp_left (isLocked_of_subset more)

/-- The latest version of a row that a transaction holds is the one it locked,
and is selected. -/
theorem selected_of_held {txn : Nat} {tag : Tag} {remaining : List Key} {row : Row}
    (locked : WellLocked update state) (active : state.opened txn = some ⟨tag, remaining⟩)
    (member : row ∈ state.table)
    (mine : (state.held txn).any (fun other => key other = key row) = true) :
    row ∈ state.held txn ∧ (update tag).selects row = true := by
  rcases List.any_eq_true.mp mine with ⟨taken, holds, same⟩
  rcases mem_held.mp holds with ⟨lock, lockMem, holder, isRow⟩
  have current := locked.current lock lockMem
  have latest := locked.same_row current.1 member (isRow ▸ of_decide_eq_true same)
  rw [holder, active, latest] at current
  rcases current.2 with ⟨opened, running, selected⟩
  cases running
  exact ⟨mem_held.mpr ⟨lock, lockMem, holder, latest⟩, selected⟩

/-- A commit changes the rows it held, and leaves the other locks in place. -/
theorem Covered.commit {toVisit : List Key} {txn : Nat} {tag : Tag} {remaining : List Key}
    (covered : Covered key due toVisit state) (locked : WellLocked update state)
    (active : state.opened txn = some ⟨tag, remaining⟩) :
    Covered key due toVisit (state.committed update txn tag) := by
  intro row member isDue untouched
  have sound := locked.commit_sound active
  rcases List.mem_map.mp member with ⟨old, oldMem, rfl⟩
  by_cases mine : (state.held txn).any (fun other => key other = key old) = true
  · exfalso
    have holds := (selected_of_held locked active oldMem mine).1
    rw [if_pos mine] at untouched
    change changesOf key (key ((update tag).set old)) (_ :: state.log) = [] at untouched
    rw [(update tag).keepsKey, changesOf_cons, sound.changesOf_held holds] at untouched
    exact List.cons_ne_nil _ _ untouched
  · have free : forall row, row ∈ state.held txn -> key row ≠ key old := by simpa using mine
    rw [if_neg mine] at isDue untouched ⊢
    change changesOf key (key old) (_ :: state.log) = [] at untouched
    rw [changesOf_cons, sound.changesOf_not_held free, List.nil_append] at untouched
    refine (covered old oldMem isDue untouched).imp_left fun taken => ?_
    rcases List.any_eq_true.mp taken with ⟨lock, lockMem, same⟩
    refine List.any_eq_true.mpr ⟨lock, List.mem_filter.mpr ⟨lockMem, ?_⟩, same⟩
    rw [decide_eq_true_eq]
    intro holder
    exact free lock.row (mem_held.mpr ⟨lock, lockMem, holder, rfl⟩) (of_decide_eq_true same)

/-- A transaction that selects the due rows has them all before it. -/
theorem covered_scan {tag : Tag}
    (catches : forall row, due row = true -> (update tag).selects row = true) :
    Covered key due ((update tag).scan state.table) state := by
  intro row member isDue _
  right
  exact List.mem_map_of_mem ((List.mem_insertionSort _).mpr
    (List.mem_filter.mpr ⟨member, catches row isDue⟩))

/-- It leaves none behind that is not locked. -/
theorem Covered.visit {txn : Nat} {tag : Tag} {candidate : Key} {rest : List Key}
    (covered : Covered key due (candidate :: rest) state)
    (active : state.opened txn = some ⟨tag, candidate :: rest⟩)
    (room : (update tag).full (state.held txn) = false)
    (skips : (update tag).skipsLocked = true)
    (catches : forall row, due row = true -> (update tag).selects row = true) :
    Covered key due rest (step update accepts state (.visit txn)) := by
  have visited := @step_visit _ _ _ key update accepts state _ txn
  have struck := (@visit_of_skips _ _ _ key update accepts state _ _ _ _ _ active room skips).2
  intro row member isDue untouched
  rw [visited.1] at member
  rw [Untouched, visited.2.1] at untouched
  rcases covered row member isDue untouched with taken | listed
  · exact Or.inl (isLocked_of_subset visited.2.2 taken)
  · rcases List.mem_cons.mp listed with same | later
    · left
      rcases struck with taken | passed
      · rw [same]
        exact taken
      · have selected := catches row isDue
        rw [passed row member same] at selected
        exact absurd selected Bool.false_ne_true
    · exact Or.inr later

/-! ## How many rows are due -/

/-- A transaction that takes due rows makes none due. -/
theorem countP_committed_le {txn : Nat} {tag : Tag} {remaining : List Key}
    (locked : WellLocked update state) (active : state.opened txn = some ⟨tag, remaining⟩)
    (takes : forall row, (update tag).selects row = true -> due row = true) :
    (state.committed update txn tag).table.countP due ≤ state.table.countP due := by
  change (state.table.map _).countP due ≤ _
  rw [List.countP_map]
  apply List.countP_mono_left
  intro row member isDue
  rw [Function.comp_apply] at isDue
  by_cases mine : (state.held txn).any (fun other => key other = key row) = true
  · exact takes row (selected_of_held locked active member mine).2
  · rwa [if_neg mine] at isDue

/-- One that leaves them not due makes as many fewer as it held. -/
theorem countP_committed_add_le {txn : Nat} {tag : Tag} {remaining : List Key}
    (locked : WellLocked update state) (active : state.opened txn = some ⟨tag, remaining⟩)
    (takes : forall row, (update tag).selects row = true -> due row = true)
    (relieves : forall row, (update tag).selects row = true -> due ((update tag).set row) = false) :
    (state.committed update txn tag).table.countP due + (state.held txn).length ≤
      state.table.countP due := by
  have others : (state.committed update txn tag).table.countP due ≤
      (state.table.filter (fun row =>
        !(state.held txn).any (fun other => key other = key row))).countP due := by
    change (state.table.map _).countP due ≤ _
    rw [List.countP_map, List.countP_filter]
    apply List.countP_mono_left
    intro row member isDue
    rw [Function.comp_apply] at isDue
    by_cases mine : (state.held txn).any (fun other => key other = key row) = true
    · have selected := (selected_of_held locked active member mine).2
      rw [if_pos mine, relieves row selected] at isDue
      cases isDue
    · rw [if_neg mine] at isDue
      simp only [isDue, Bool.true_and, Bool.not_eq_true']
      exact Bool.eq_false_iff.mpr mine
  have held : (state.held txn).length ≤
      (state.table.filter (fun row =>
        (state.held txn).any (fun other => key other = key row))).countP due := by
    have sound := locked.commit_sound active
    rw [List.countP_eq_length_filter]
    refine (List.subperm_of_subset (List.Nodup.of_map key sound.once) ?_).length_le
    intro row holds
    rcases mem_held.mp holds with ⟨lock, lockMem, _, rfl⟩
    refine List.mem_filter.mpr ⟨List.mem_filter.mpr ⟨(locked.current lock lockMem).1, ?_⟩,
      takes lock.row (sound.selected lock.row holds)⟩
    exact List.any_eq_true.mpr ⟨lock.row, holds, decide_eq_true rfl⟩
  have parts := List.countP_eq_countP_filter_add state.table due (fun row =>
    (state.held txn).any (fun other => key other = key row))
  omega

/-! ## From the first version on -/

/-- The changes of each row lead from its first version to the latest one. -/
def Traced (key : Row -> Key) (first : List Row) (state : State Tag Row Key) : Prop :=
  forall start, start ∈ first -> Exists fun row : Row => row ∈ state.table ∧ key row = key start ∧
    Path start (changesOf key (key start) state.log) row

theorem Traced.initial (table : List Row) :
    Traced key table (RowLocking.initial table : State Tag Row Key) :=
  fun start member => ⟨start, member, rfl, rfl⟩

theorem Traced.commit {first : List Row} {txn : Nat} {tag : Tag} {remaining : List Key}
    (traced : Traced key first state) (locked : WellLocked update state)
    (active : state.opened txn = some ⟨tag, remaining⟩) :
    Traced key first (state.committed update txn tag) := by
  intro start member
  have sound := locked.commit_sound active
  rcases traced start member with ⟨old, oldMem, same, path⟩
  by_cases mine : (state.held txn).any (fun other => key other = key old) = true
  · have holds := (selected_of_held locked active oldMem mine).1
    refine ⟨(update tag).set old, List.mem_map.mpr ⟨old, oldMem, if_pos mine⟩,
      ((update tag).keepsKey old).trans same, ?_⟩
    change Path start (changesOf key (key start) (_ :: state.log)) _
    rw [changesOf_cons, ← same, sound.changesOf_held holds, same]
    exact ⟨rfl, path⟩
  · have free : forall row, row ∈ state.held txn -> key row ≠ key old := by simpa using mine
    refine ⟨old, mem_rewritten_of_not_held oldMem free, same, ?_⟩
    change Path start (changesOf key (key start) (_ :: state.log)) _
    rw [changesOf_cons, ← same, sound.changesOf_not_held free, same]
    exact path

/-- The first change of a path starts where the path does. -/
theorem Path.first {start finish : Row} {changes : List (Change Row)}
    (path : Path start changes finish) (nonempty : changes ≠ []) :
    Exists fun change : Change Row => change ∈ changes ∧ change.before = start := by
  induction changes generalizing finish with
  | nil => exact absurd rfl nonempty
  | cons latest earlier inductionHypothesis =>
      cases earlier with
      | nil => exact ⟨latest, List.mem_cons_self, path.2.symm⟩
      | cons previous others =>
          rcases inductionHypothesis path.2 (List.cons_ne_nil _ _) with ⟨change, member, same⟩
          exact ⟨change, List.mem_cons_of_mem latest member, same⟩

/-- A row that is not untouched is as the last change of it left it. -/
theorem WellLogged.untouched_or_changed (logged : WellLogged update state) {row : Row}
    (member : row ∈ state.table) : Untouched key state row ∨
      Exists fun commit : Commit Tag Row => commit ∈ state.log ∧
        Exists fun change : Change Row => change ∈ commit.changes ∧ change.after = row := by
  rcases logged.path row member with ⟨start, path⟩
  cases list : changesOf key (key row) state.log with
  | nil => exact Or.inl list
  | cons change earlier =>
      right
      rw [list] at path
      have changed : change ∈ changesOf key (key row) state.log := list ▸ List.mem_cons_self
      rcases mem_changesOf.mp changed with ⟨commit, commitMem, changeMem, _⟩
      exact ⟨commit, commitMem, change, changeMem, path.1⟩

/-! ## Tags -/

/-- Each transaction was started with a tag that is allowed under its number. -/
structure Tagged (allowed : Nat -> Tag -> Prop) (state : State Tag Row Key) : Prop where
  opened : forall txn opened, state.opened txn = some opened -> allowed txn opened.tag
  logged : forall commit, commit ∈ state.log -> Exists fun txn : Nat => allowed txn commit.tag

variable {allowed : Nat -> Tag -> Prop}

omit [DecidableEq Key] in
theorem Tagged.initial (table : List Row) :
    Tagged allowed (RowLocking.initial table : State Tag Row Key) :=
  ⟨fun _ _ impossible => (by cases impossible), fun _ member => absurd member List.not_mem_nil⟩

omit [DecidableEq Key] in
theorem Tagged.begun (tagged : Tagged allowed state) {txn : Nat} {tag : Tag}
    (isAllowed : allowed txn tag) : Tagged allowed (state.begun update txn tag) := by
  refine ⟨fun other opened active => ?_, tagged.logged⟩
  by_cases same : other = txn
  · subst same
    simp only [State.begun, State.advance, Function.update_self, Option.some.injEq] at active
    subst active
    exact isAllowed
  · simp only [State.begun, State.advance, Function.update_of_ne same] at active
    exact tagged.opened other opened active

theorem Tagged.visit (tagged : Tagged allowed state) (txn : Nat) :
    Tagged allowed (step update accepts state (.visit txn)) := by
  refine ⟨fun other opened active => ?_, fun commit member => ?_⟩
  · rcases opened_of_step active with ⟨before, wasActive, same⟩ | impossible
    · rw [← same]
      exact tagged.opened other before wasActive
    · cases impossible
  · rw [(step_visit txn).2.1] at member
    exact tagged.logged commit member

theorem Tagged.committed (tagged : Tagged allowed state) {txn : Nat} {tag : Tag}
    {remaining : List Key} (active : state.opened txn = some ⟨tag, remaining⟩) :
    Tagged allowed (state.committed update txn tag) := by
  refine ⟨fun other opened running => ?_, fun commit member => ?_⟩
  · exact tagged.opened other opened (opened_of_release running).2
  · rcases List.mem_cons.mp member with rfl | earlier
    · exact ⟨txn, tagged.opened txn _ active⟩
    · exact tagged.logged commit earlier

end RowLocking
