import PgJobQ.Library.Draining

/-!
# Waiting for row locks

A transaction waits when the candidate it is to visit next is locked and its
update does not pass over locked rows.  It waits for the transaction that holds
the lock, and a deadlock is a circle of transactions that wait for each other.

An update that passes over locked rows never waits, and one that selects a
single row has nothing locked while it waits.  Where every update is of one of
the two kinds, whoever is waited for does not wait, and the open transactions
can all be brought to their end without rolling any of them back.
-/

namespace RowLocking

open Runs

universe u v w

variable {Row : Type u} {Key : Type v} {Tag : Type w}

/-- The update holds no lock while it waits for one: it passes over locked
rows, or its predicate singles out a row. -/
def Update.WaitsEmptyHanded {key : Row -> Key} (update : Update key) : Prop :=
  update.skipsLocked = true ∨ forall first second, update.selects first = true ->
    update.selects second = true -> key first = key second

/-- The phases that bring an open transaction forward. -/
def Label.goesOn : Label Tag -> Bool
  | .visit _ => true
  | .commit _ => true
  | _ => false

section Waiting

variable {key : Row -> Key} (update : Tag -> Update key)

/-- The transaction is to lock this row, and another one has it. -/
def State.WaitsAt [DecidableEq Key] (state : State Tag Row Key) (txn : Nat) (wanted : Key) : Prop :=
  Exists fun tag : Tag => Exists fun rest : List Key =>
    state.opened txn = some ⟨tag, wanted :: rest⟩ ∧ (update tag).full (state.held txn) = false ∧
      (update tag).skipsLocked = false ∧ state.isLocked key wanted = true

/-- The transaction waits for the lock that the other one holds. -/
def State.WaitsFor [DecidableEq Key] (state : State Tag Row Key) (txn holder : Nat) : Prop :=
  Exists fun wanted : Key => state.WaitsAt update txn wanted ∧
    Exists fun row : Row => row ∈ state.held holder ∧ key row = wanted

def State.Waits [DecidableEq Key] (state : State Tag Row Key) (txn : Nat) : Prop :=
  Exists fun wanted : Key => state.WaitsAt update txn wanted

/-- Who may have to wait has one row at most, locked or still to be visited. -/
def Modest (state : State Tag Row Key) : Prop :=
  forall txn tag remaining, state.opened txn = some ⟨tag, remaining⟩ ->
    (update tag).skipsLocked = false -> (state.held txn).length + remaining.length ≤ 1

variable {update} {state : State Tag Row Key}

theorem held_advance {txn other : Nat} {tag : Tag} {rest : List Key} :
    (state.advance txn tag rest).held other = state.held other := rfl

/-- A lock adds the row to what its holder has. -/
theorem held_lock {txn other : Nat} {tag : Tag} {rest : List Key} {row : Row} :
    State.held { state.advance txn tag rest with locks := state.locks ++ [⟨txn, row⟩] } other =
      state.held other ++ if other = txn then [row] else [] := by
  unfold State.held
  rw [List.filter_append, List.map_append]
  by_cases same : other = txn
  · simp [same]
  · simp [same, Ne.symm same]

/-! ## What a waiting transaction holds -/

theorem Modest.initial (table : List Row) :
    Modest update (RowLocking.initial table : State Tag Row Key) :=
  fun _ _ _ active => by cases active

/-- A scan for a single row has at most one candidate. -/
theorem length_scan_le_one {table : List Row} (unique : (table.map key).Nodup) {tag : Tag}
    (emptyHanded : (update tag).WaitsEmptyHanded) (waits : (update tag).skipsLocked = false) :
    ((update tag).scan table).length ≤ 1 := by
  have single : forall first second, (update tag).selects first = true ->
      (update tag).selects second = true -> key first = key second := by
    rcases emptyHanded with skips | single
    · rw [waits] at skips
      cases skips
    · exact single
  unfold Update.scan
  rw [List.length_map, List.length_insertionSort]
  have distinct : ((table.filter (update tag).selects).map key).Nodup :=
    (List.Sublist.map _ List.filter_sublist).nodup unique
  cases chosen : table.filter (update tag).selects with
  | nil => exact Nat.zero_le 1
  | cons first others =>
      cases others with
      | nil => exact Nat.le_refl 1
      | cons second others =>
          have firstMem : first ∈ table.filter (update tag).selects := by
            rw [chosen]
            exact List.mem_cons_self
          have secondMem : second ∈ table.filter (update tag).selects := by
            rw [chosen]
            exact List.mem_cons_of_mem first List.mem_cons_self
          have same := single first second (List.mem_filter.mp firstMem).2
            (List.mem_filter.mp secondMem).2
          rw [chosen, List.map_cons, List.map_cons, same] at distinct
          exact absurd List.mem_cons_self (List.nodup_cons.mp distinct).1

theorem Modest.advance (modest : Modest update state) {txn : Nat} {tag : Tag} {rest : List Key}
    (short : (update tag).skipsLocked = false -> (state.held txn).length + rest.length ≤ 1) :
    Modest update (state.advance txn tag rest) := by
  intro other otherTag remaining active waits
  rw [held_advance]
  by_cases same : other = txn
  · subst same
    simp only [State.advance, Function.update_self] at active
    cases active
    exact short waits
  · simp only [State.advance, Function.update_of_ne same] at active
    exact modest other otherTag remaining active waits

theorem Modest.release (modest : Modest update state) (txn : Nat) :
    Modest update (state.release txn) := by
  intro other tag remaining active waits
  by_cases same : other = txn
  · subst same
    simp [State.release] at active
  · rw [held_release_of_ne same]
    simp only [State.release, Function.update_of_ne same] at active
    exact modest other tag remaining active waits

theorem Modest.lock (modest : Modest update state) {txn : Nat} {tag : Tag} {rest : List Key}
    {row : Row} (active : state.opened txn = some ⟨tag, key row :: rest⟩) :
    Modest update { state.advance txn tag rest with locks := state.locks ++ [⟨txn, row⟩] } := by
  intro other otherTag remaining running waits
  rw [held_lock, List.length_append]
  by_cases same : other = txn
  · subst same
    simp only [State.advance, Function.update_self] at running
    cases running
    have before := modest other tag _ active waits
    simp only [List.length_cons] at before
    simp only [if_pos, List.length_singleton]
    omega
  · simp only [State.advance, Function.update_of_ne same] at running
    simp only [if_neg same, List.length_nil, Nat.add_zero]
    exact modest other otherTag remaining running waits

theorem opened_release_of_ne {txn other : Nat} (different : other ≠ txn) :
    (state.release txn).opened other = state.opened other :=
  Function.update_of_ne different _ _

end Waiting

variable [DecidableEq Key] {key : Row -> Key} {update : Tag -> Update key}
  {accepts : List Row -> Bool} {state : State Tag Row Key}

/-- One phase keeps the invariant, where a transaction starts only with an
update that waits empty-handed. -/
theorem Modest.step (modest : Modest update state) (locked : WellLocked update state)
    (emptyHanded : forall tag, (update tag).WaitsEmptyHanded) (label : Label Tag) :
    Modest update (RowLocking.step update accepts state label) := by
  have phase := phase_of_step update accepts state label
  generalize RowLocking.step update accepts state label = next at phase
  cases phase with
  | stays => exact modest
  | @starts txn tag idle =>
      refine modest.advance (fun waits => ?_)
      rw [locked.held_of_none idle, List.length_nil, Nat.zero_add]
      exact length_scan_le_one locked.unique (emptyHanded tag) waits
  | @strikes txn tag candidate rest active =>
      refine modest.advance (fun waits => ?_)
      have before := modest txn tag _ active waits
      simp only [List.length_cons] at before
      omega
  | locks active room unlocked latest selected => exact modest.lock active
  | @commits txn tag remaining active accepted => exact modest.release txn
  | ends => exact modest.release _

/-- A transaction that waits has nothing locked. -/
theorem Modest.held_of_waits (modest : Modest update state) {txn : Nat}
    (waits : state.Waits update txn) : state.held txn = [] := by
  rcases waits with ⟨wanted, tag, rest, active, _, noSkip, _⟩
  have few := modest txn tag _ active noSkip
  simp only [List.length_cons] at few
  exact List.length_eq_zero_iff.mp (by omega)

/-- Who waits, waits for another transaction, which is open. -/
theorem WellLocked.waitsFor (locked : WellLocked update state) {txn : Nat}
    (modest : Modest update state) (waits : state.Waits update txn) :
    Exists fun holder : Nat => holder ≠ txn ∧ state.WaitsFor update txn holder ∧
      state.opened holder ≠ none := by
  have empty := modest.held_of_waits waits
  rcases waits with ⟨wanted, waitsAt⟩
  rcases waitsAt with ⟨tag, rest, active, room, noSkip, taken⟩
  rcases List.any_eq_true.mp taken with ⟨lock, member, same⟩
  have holds : lock.row ∈ state.held lock.holder := mem_held.mpr ⟨lock, member, rfl, rfl⟩
  refine ⟨lock.holder, ?_, ⟨wanted, ⟨tag, rest, active, room, noSkip, taken⟩, lock.row, holds,
    of_decide_eq_true same⟩, ?_⟩
  · intro own
    rw [own, empty] at holds
    cases holds
  · rcases (locked.current lock member).2 with ⟨txn, running, _⟩
    rw [running]
    exact Option.some_ne_none txn

/-- Who is waited for does not wait. -/
theorem Modest.not_waits_of_waitsFor (modest : Modest update state) {txn holder : Nat}
    (waitsFor : state.WaitsFor update txn holder) : Not (state.Waits update holder) := by
  intro waits
  rcases waitsFor with ⟨wanted, _, row, holds, _⟩
  rw [modest.held_of_waits waits] at holds
  cases holds

/-! ## Bringing the open transactions to their end -/

/-- A transaction with nothing left to lock ends with its commit. -/
theorem commit_ends {txn : Nat} {tag : Tag} {remaining : List Key}
    (active : state.opened txn = some ⟨tag, remaining⟩)
    (done : (remaining.isEmpty || (update tag).full (state.held txn)) = true) :
    (RowLocking.step update accepts state (.commit txn)).opened txn = none ∧
      forall other, other ≠ txn ->
        (RowLocking.step update accepts state (.commit txn)).opened other = state.opened other := by
  unfold RowLocking.step
  simp only [active, done, if_true]
  split
  · exact ⟨Function.update_self _ _ _, fun other different => opened_release_of_ne different⟩
  · exact ⟨Function.update_self _ _ _, fun other different => opened_release_of_ne different⟩

/-- A visit that does not wait goes on to the next candidate. -/
theorem visit_goesOn {txn : Nat} {tag : Tag} {candidate : Key} {rest : List Key}
    (active : state.opened txn = some ⟨tag, candidate :: rest⟩)
    (room : (update tag).full (state.held txn) = false)
    (free : Not (state.WaitsAt update txn candidate)) :
    (RowLocking.step update accepts state (.visit txn)).opened txn = some ⟨tag, rest⟩ ∧
      forall other, other ≠ txn ->
        (RowLocking.step update accepts state (.visit txn)).opened other = state.opened other := by
  have advanced : (state.advance txn tag rest).opened txn = some ⟨tag, rest⟩ ∧
      forall other, other ≠ txn -> (state.advance txn tag rest).opened other = state.opened other :=
    ⟨Function.update_self _ _ _, fun other different => Function.update_of_ne different _ _⟩
  unfold RowLocking.step
  simp only [active, room, Bool.false_eq_true, if_false]
  cases taken : state.isLocked key candidate with
  | true =>
      cases skips : (update tag).skipsLocked with
      | true => exact advanced
      | false => exact absurd ⟨tag, rest, active, room, skips, taken⟩ free
  | false =>
      simp only [Bool.false_eq_true, if_false]
      split
      · exact advanced
      · exact advanced

/-- An open transaction that does not wait can be ended, and nobody else is
touched.  The induction is on the candidates it has not visited. -/
theorem finish {txn : Nat} {tag : Tag} {remaining : List Key}
    (emptyHanded : forall tag, (update tag).WaitsEmptyHanded) (locked : WellLocked update state)
    (modest : Modest update state) (active : state.opened txn = some ⟨tag, remaining⟩)
    (free : Not (state.Waits update txn)) :
    Exists fun labels : List (Label Tag) => (forall label, label ∈ labels -> label.goesOn = true) ∧
      (run (RowLocking.step update accepts) state labels).opened txn = none ∧
        forall other, other ≠ txn ->
          (run (RowLocking.step update accepts) state labels).opened other = state.opened other := by
  induction remaining generalizing state with
  | nil => exact ⟨[.commit txn], by simp [Label.goesOn], commit_ends active rfl⟩
  | cons candidate rest inductionHypothesis =>
      cases room : (update tag).full (state.held txn) with
      | true => exact ⟨[.commit txn], by simp [Label.goesOn], commit_ends active (by simp [room])⟩
      | false =>
          have visited := @visit_goesOn _ _ _ _ _ _ accepts _ _ _ _ _ active room
            (fun waitsAt => free ⟨candidate, waitsAt⟩)
          have nextModest : Modest update (RowLocking.step update accepts state (.visit txn)) :=
            modest.step locked emptyHanded (.visit txn)
          have nextFree : Not ((RowLocking.step update accepts state (.visit txn)).Waits update txn) := by
            rintro ⟨wanted, other, later, running, _, noSkip, _⟩
            rw [visited.1] at running
            cases running
            have few := modest txn tag _ active noSkip
            simp only [List.length_cons] at few
            omega
          rcases inductionHypothesis (locked.step (.visit txn)) nextModest visited.1 nextFree with
            ⟨labels, goOn, ended, others⟩
          refine ⟨.visit txn :: labels, ?_, ended, ?_⟩
          · intro label member
            rcases List.mem_cons.mp member with rfl | later
            · rfl
            · exact goOn label later
          · exact fun other different => (others other different).trans (visited.2 other different)

/-- All open transactions can be brought to their end.  Who does not wait goes
first, and whoever is waited for does not wait.  The induction is on a list
that has the open ones. -/
theorem drains (emptyHanded : forall tag, (update tag).WaitsEmptyHanded)
    (locked : WellLocked update state) (modest : Modest update state) (parties : List Nat)
    (known : forall txn, state.opened txn ≠ none -> txn ∈ parties) :
    Exists fun labels : List (Label Tag) => (forall label, label ∈ labels -> label.goesOn = true) ∧
      forall txn, (run (RowLocking.step update accepts) state labels).opened txn = none := by
  induction size : parties.length generalizing state parties with
  | zero =>
      refine ⟨[], fun label member => absurd member List.not_mem_nil, fun txn => ?_⟩
      by_contra active
      have member := known txn active
      rw [List.length_eq_zero_iff.mp size] at member
      cases member
  | succ count inductionHypothesis =>
      by_cases idle : forall txn, state.opened txn = none
      · exact ⟨[], fun label member => absurd member List.not_mem_nil, idle⟩
      · rcases not_forall.mp idle with ⟨some, active⟩
        have first : Exists fun txn : Nat => state.opened txn ≠ none ∧
            Not (state.Waits update txn) := by
          by_cases waits : state.Waits update some
          · rcases locked.waitsFor modest waits with ⟨holder, _, waitsFor, running⟩
            exact ⟨holder, running, modest.not_waits_of_waitsFor waitsFor⟩
          · exact ⟨some, active, waits⟩
        rcases first with ⟨txn, running, free⟩
        rcases Option.ne_none_iff_exists'.mp running with ⟨⟨tag, remaining⟩, opened⟩
        rcases @finish _ _ _ _ _ _ accepts _ _ _ _ emptyHanded locked modest opened free with
          ⟨labels, goOn, ended, others⟩
        have kept : WellLocked update (run (RowLocking.step update accepts) state labels) ∧
            Modest update (run (RowLocking.step update accepts) state labels) :=
          @run_invariant _ _ _ (fun state => WellLocked update state ∧ Modest update state)
            (fun state label both => ⟨both.1.step label, both.2.step both.1 emptyHanded label⟩)
            _ ⟨locked, modest⟩ labels
        have rest : forall other,
            (run (RowLocking.step update accepts) state labels).opened other ≠ none ->
              other ∈ parties.erase txn := by
          intro other open'
          have different : other ≠ txn := by
            rintro rfl
            exact open' ended
          rw [others other different] at open'
          exact (List.mem_erase_of_ne different).mpr (known other open')
        have fewer : (parties.erase txn).length = count := by
          rw [List.length_erase_of_mem (known txn running), size]
          rfl
        rcases inductionHypothesis kept.1 kept.2 _ rest fewer with ⟨later, goOnLater, done⟩
        refine ⟨labels ++ later, ?_, ?_⟩
        · intro label member
          rcases List.mem_append.mp member with earlier | after
          · exact goOn label earlier
          · exact goOnLater label after
        · intro other
          rw [run_append]
          exact done other

/-- The transactions that a run opens. -/
def Label.starts : Label Tag -> Option Nat
  | .start txn _ => some txn
  | _ => none

/-- What is open at the end of a run was open before, or started in it. -/
theorem opened_of_run {labels : List (Label Tag)} {txn : Nat}
    (active : (run (RowLocking.step update accepts) state labels).opened txn ≠ none) :
    state.opened txn ≠ none ∨ txn ∈ labels.filterMap Label.starts := by
  induction labels generalizing state with
  | nil => exact Or.inl active
  | cons label labels inductionHypothesis =>
      rcases inductionHypothesis active with before | later
      · rcases Option.ne_none_iff_exists'.mp before with ⟨opened, running⟩
        rcases opened_of_step running with ⟨earlier, same, _⟩ | started
        · exact Or.inl (same ▸ Option.some_ne_none earlier)
        · rw [started]
          exact Or.inr List.mem_cons_self
      · right
        rw [List.filterMap_cons]
        split
        · exact later
        · exact List.mem_cons_of_mem _ later

end RowLocking
