import Mathlib.Data.List.Nodup

/-!
# Unique indexes over a list of rows

A table is a list of rows.  A unique index reads a key from each row and
forbids two rows with the same key.  The index is partial: a row whose key is
`none` lies outside of it, which is how a `WHERE` clause on an index is
expressed.  A primary key is the total case.

Three ways of changing a table occur: rows leave it, one row is appended to
it, and its rows are rewritten in place.  There is one lemma for each.
-/

namespace UniqueRows

variable {Row : Type*} {Key : Type*}

/-- No two rows have the same key. -/
def UniqueOn (key : Row -> Option Key) (rows : List Row) : Prop :=
  (rows.filterMap key).Nodup

instance [DecidableEq Key] (key : Row -> Option Key) (rows : List Row) :
    Decidable (UniqueOn key rows) :=
  inferInstanceAs (Decidable (rows.filterMap key).Nodup)

theorem uniqueOn_nil (key : Row -> Option Key) : UniqueOn key [] :=
  List.nodup_nil

theorem uniqueOn_cons_iff (key : Row -> Option Key) (row : Row) (rows : List Row) :
    UniqueOn key (row :: rows) <->
      (forall value, key row = some value -> forall other, other ∈ rows -> key other ≠ some value) ∧
        UniqueOn key rows := by
  unfold UniqueOn
  cases found : key row with
  | none => simp [found]
  | some value =>
      simp only [List.filterMap_cons, found, List.nodup_cons, List.mem_filterMap, not_exists,
        not_and, Option.some.injEq, ne_eq, forall_eq']

theorem uniqueOn_singleton (key : Row -> Option Key) (row : Row) : UniqueOn key [row] :=
  (uniqueOn_cons_iff key row []).mpr
    ⟨fun _ _ _ member => absurd member List.not_mem_nil, uniqueOn_nil key⟩

/-- A row is determined by its key. -/
theorem UniqueOn.eq_of_key {key : Row -> Option Key} {rows : List Row}
    (unique : UniqueOn key rows) {first second : Row} {value : Key}
    (firstMem : first ∈ rows) (secondMem : second ∈ rows)
    (firstKey : key first = some value) (secondKey : key second = some value) :
    first = second := by
  induction rows with
  | nil => cases firstMem
  | cons row rows inductionHypothesis =>
      have parts := (uniqueOn_cons_iff key row rows).mp unique
      rcases List.mem_cons.mp firstMem with firstHead | firstTail
      · rcases List.mem_cons.mp secondMem with secondHead | secondTail
        · exact firstHead.trans secondHead.symm
        · exact absurd secondKey (parts.1 value (firstHead ▸ firstKey) second secondTail)
      · rcases List.mem_cons.mp secondMem with secondHead | secondTail
        · exact absurd firstKey (parts.1 value (secondHead ▸ secondKey) first firstTail)
        · exact inductionHypothesis parts.2 firstTail secondTail

/-- A search by the key finds the row that has it. -/
theorem UniqueOn.find?_eq_some_iff {key : Row -> Option Key} {rows : List Row}
    (unique : UniqueOn key rows) {test : Row -> Bool} {value : Key}
    (tests : forall row, test row = true <-> key row = some value) {row : Row} :
    rows.find? test = some row <-> row ∈ rows ∧ key row = some value := by
  constructor
  · intro found
    exact ⟨List.mem_of_find?_eq_some found, (tests row).mp (List.find?_some found)⟩
  · rintro ⟨member, keyed⟩
    cases found : rows.find? test with
    | none => exact absurd ((tests row).mpr keyed) (List.find?_eq_none.mp found row member)
    | some other =>
        have otherKeyed := (tests other).mp (List.find?_some found)
        rw [unique.eq_of_key (List.mem_of_find?_eq_some found) member otherKeyed keyed]

/-- Of distinct rows, no two have the same key. -/
theorem uniqueOn_iff_of_nodup {key : Row -> Option Key} {rows : List Row}
    (distinct : rows.Nodup) :
    UniqueOn key rows <-> forall first, first ∈ rows -> forall second, second ∈ rows ->
      forall value, key first = some value -> key second = some value -> first = second := by
  constructor
  · exact fun unique first firstMem second secondMem value firstKey secondKey =>
      unique.eq_of_key firstMem secondMem firstKey secondKey
  · intro determined
    induction rows with
    | nil => exact uniqueOn_nil key
    | cons row rows inductionHypothesis =>
        have parts := List.nodup_cons.mp distinct
        apply (uniqueOn_cons_iff key row rows).mpr
        constructor
        · intro value rowKey other member otherKey
          have same := determined row List.mem_cons_self other (List.mem_cons_of_mem row member)
            value rowKey otherKey
          exact parts.1 (same ▸ member)
        · exact inductionHypothesis parts.2 (fun first firstMem second secondMem =>
            determined first (List.mem_cons_of_mem row firstMem) second
              (List.mem_cons_of_mem row secondMem))

theorem uniqueOn_map_iff (key : Row -> Option Key) (rewrite : Row -> Row) (rows : List Row) :
    UniqueOn key (rows.map rewrite) <-> UniqueOn (fun row => key (rewrite row)) rows := by
  unfold UniqueOn
  rw [List.filterMap_map]
  rfl

/-- Rows that leave a table leave its indexes intact. -/
theorem UniqueOn.sublist {key : Row -> Option Key} {rows kept : List Row}
    (unique : UniqueOn key rows) (sub : kept.Sublist rows) : UniqueOn key kept :=
  List.Nodup.sublist (sub.filterMap key) unique

/-- A row may be appended exactly when no row holds its key. -/
theorem uniqueOn_append_singleton_iff (key : Row -> Option Key) (rows : List Row) (row : Row) :
    UniqueOn key (rows ++ [row]) <->
      UniqueOn key rows ∧
        forall value, key row = some value -> forall other, other ∈ rows -> key other ≠ some value := by
  unfold UniqueOn
  cases found : key row with
  | none => simp [List.filterMap_append, found]
  | some value =>
      simp only [List.filterMap_append, List.filterMap_cons, found, List.filterMap_nil,
        List.nodup_append, List.nodup_singleton, List.mem_singleton, List.mem_filterMap,
        Option.some.injEq, ne_eq, forall_eq', true_and]
      constructor
      · rintro ⟨unique, apart⟩
        exact ⟨unique, fun other member same => apart value ⟨other, member, same⟩ value rfl rfl⟩
      · rintro ⟨unique, apart⟩
        refine ⟨unique, ?_⟩
        rintro taken ⟨other, member, same⟩ _ rfl rfl
        exact apart other member same

theorem UniqueOn.append {key : Row -> Option Key} {rows : List Row} {new : Row}
    (unique : UniqueOn key rows)
    (apart : (key new).isSome = true -> forall old, old ∈ rows -> key old ≠ key new) :
    UniqueOn key (rows ++ [new]) := by
  apply (uniqueOn_append_singleton_iff key rows new).mpr
  refine ⟨unique, ?_⟩
  intro value isValue old member same
  have keyed : (key new).isSome = true := by
    rw [isValue]
    rfl
  exact apart keyed old member (same.trans isValue.symm)

/-- Rewriting rows in place keeps an index whose keys are kept or given up. -/
theorem UniqueOn.map {key : Row -> Option Key} {rows : List Row} {rewrite : Row -> Row}
    (unique : UniqueOn key rows)
    (keeps : forall row, row ∈ rows -> key (rewrite row) = key row ∨ key (rewrite row) = none) :
    UniqueOn key (rows.map rewrite) := by
  induction rows with
  | nil => exact unique
  | cons row rows inductionHypothesis =>
      have parts := (uniqueOn_cons_iff key row rows).mp unique
      rw [List.map_cons, uniqueOn_cons_iff]
      refine ⟨?_, inductionHypothesis parts.2 (fun other member =>
        keeps other (List.mem_cons_of_mem row member))⟩
      intro value rewritten other member taken
      rcases List.mem_map.mp member with ⟨source, sourceMem, rfl⟩
      rcases keeps row List.mem_cons_self with rowSame | rowGone
      · rcases keeps source (List.mem_cons_of_mem row sourceMem) with sourceSame | sourceGone
        · exact parts.1 value (rowSame ▸ rewritten) source sourceMem (sourceSame ▸ taken)
        · rw [sourceGone] at taken
          cases taken
      · rw [rowGone] at rewritten
        cases rewritten

/-- Selecting the rows with the key of a row selects that row alone. -/
theorem UniqueOn.filter_eq_singleton [DecidableEq Key] {key : Row -> Option Key} {rows : List Row}
    (unique : UniqueOn key rows) {row : Row} {value : Key} (member : row ∈ rows)
    (rowKey : key row = some value) :
    rows.filter (fun other => key other = some value) = [row] := by
  induction rows with
  | nil => cases member
  | cons head rows inductionHypothesis =>
      have parts := (uniqueOn_cons_iff key head rows).mp unique
      by_cases headKey : key head = some value
      · have same : row = head := unique.eq_of_key member List.mem_cons_self rowKey headKey
        rw [List.filter_cons_of_pos (by simpa using headKey), List.filter_eq_nil_iff.mpr, same]
        intro other otherMem
        simpa using parts.1 value headKey other otherMem
      · rw [List.filter_cons_of_neg (by simpa using headKey)]
        rcases List.mem_cons.mp member with same | tail
        · exact absurd (same ▸ rowKey) headKey
        · exact inductionHypothesis parts.2 tail

end UniqueRows
