import Mathlib.Data.List.Sort
import PgJobQ.Library.UniqueRows

/-!
# Views of a table

Some rows of a table are visible to an observer.  Two tables agree for the
observer when they hold the same visible rows, in whatever order and whatever
else they hold.  A query that selects visible rows only has the same answer on
tables that agree, provided that a key determines what it returns.

A table that is changed agrees with what it was when no visible row has been
rewritten, removed or added.
-/

namespace RowViews

open UniqueRows

variable {Row : Type*} {Key : Type*}

def Agree (visible : Row -> Bool) (one two : List Row) : Prop :=
  forall row, visible row = true -> (row ∈ one <-> row ∈ two)

variable {visible : Row -> Bool} {one two three : List Row}

theorem Agree.refl (visible : Row -> Bool) (rows : List Row) : Agree visible rows rows :=
  fun _ _ => Iff.rfl

theorem Agree.symm (agree : Agree visible one two) : Agree visible two one :=
  fun row seen => (agree row seen).symm

theorem Agree.trans (first : Agree visible one two) (second : Agree visible two three) :
    Agree visible one three :=
  fun row seen => (first row seen).trans (second row seen)

/-! ## Queries -/

/-- The visible row with a key is found in both tables or in neither. -/
theorem Agree.find?_eq {key : Row -> Option Key} (agree : Agree visible one two)
    (uniqueOne : UniqueOn key one) (uniqueTwo : UniqueOn key two) {test : Row -> Bool} {value : Key}
    (tests : forall row, test row = true <-> key row = some value)
    (sees : forall row, test row = true -> visible row = true) :
    one.find? test = two.find? test := by
  apply Option.ext
  intro row
  rw [uniqueOne.find?_eq_some_iff tests, uniqueTwo.find?_eq_some_iff tests]
  constructor
  · rintro ⟨member, keyed⟩
    exact ⟨(agree row (sees row ((tests row).mpr keyed))).mp member, keyed⟩
  · rintro ⟨member, keyed⟩
    exact ⟨(agree row (sees row ((tests row).mpr keyed))).mpr member, keyed⟩

/-- Visible rows come in the same order, when the order ties no two keys. -/
theorem Agree.sorted_eq {key : Row -> Key} (agree : Agree visible one two)
    (uniqueOne : UniqueOn (fun row => some (key row)) one)
    (uniqueTwo : UniqueOn (fun row => some (key row)) two) {selects : Row -> Bool}
    (sees : forall row, selects row = true -> visible row = true) (before : Row -> Row -> Prop)
    [DecidableRel before] [Std.Total before] [IsTrans Row before]
    (ties : forall first second, before first second -> before second first ->
      key first = key second) :
    (one.filter selects).insertionSort before = (two.filter selects).insertionSort before := by
  have distinct : forall rows : List Row, UniqueOn (fun row => some (key row)) rows ->
      (rows.filter selects).Nodup := by
    intro rows unique
    rw [UniqueOn, show (fun row => some (key row)) = some ∘ key from rfl, List.filterMap_eq_map]
      at unique
    exact (List.Nodup.of_map key unique).filter selects
  have same : (one.filter selects).Perm (two.filter selects) := by
    rw [List.perm_ext_iff_of_nodup (distinct one uniqueOne) (distinct two uniqueTwo)]
    intro row
    rw [List.mem_filter, List.mem_filter]
    constructor
    · exact fun ⟨member, selected⟩ => ⟨(agree row (sees row selected)).mp member, selected⟩
    · exact fun ⟨member, selected⟩ => ⟨(agree row (sees row selected)).mpr member, selected⟩
  have sorted := (List.perm_insertionSort before (one.filter selects)).trans
    (same.trans (List.perm_insertionSort before (two.filter selects)).symm)
  refine List.Perm.eq_of_pairwise ?_ (List.pairwise_insertionSort before _)
    (List.pairwise_insertionSort before _) sorted
  intro first second firstMem secondMem forth back
  have inOne : first ∈ one := (List.mem_filter.mp ((List.mem_insertionSort before).mp firstMem)).1
  have alsoInOne : second ∈ one :=
    (List.mem_filter.mp ((List.mem_insertionSort before).mp (sorted.mem_iff.mpr secondMem))).1
  exact uniqueOne.eq_of_key inOne alsoInOne rfl (congrArg some (ties first second forth back).symm)

/-! ## Changes -/

/-- Rows that are rewritten under the same keys agree with what they were
exactly when no visible one is changed. -/
theorem agree_map_iff {key : Row -> Key} {rows : List Row} {rewrite : Row -> Row}
    (unique : UniqueOn (fun row => some (key row)) rows)
    (sameKey : forall row, key (rewrite row) = key row)
    (sameView : forall row, visible (rewrite row) = visible row) :
    Agree visible rows (rows.map rewrite) <->
      forall row, row ∈ rows -> visible row = true -> rewrite row = row := by
  constructor
  · intro agree row member seen
    rcases List.mem_map.mp ((agree row seen).mp member) with ⟨source, sourceMem, rewritten⟩
    have same : source = row := by
      refine unique.eq_of_key sourceMem member rfl (congrArg some ?_)
      rw [← rewritten, sameKey]
    rwa [same] at rewritten
  · intro unchanged row seen
    constructor
    · exact fun member => List.mem_map.mpr ⟨row, member, unchanged row member seen⟩
    · intro member
      rcases List.mem_map.mp member with ⟨source, sourceMem, rfl⟩
      rw [sameView] at seen
      rwa [unchanged source sourceMem seen]

/-- Rows may leave exactly when no visible one does. -/
theorem agree_filter_iff {rows : List Row} {keeps : Row -> Bool} :
    Agree visible rows (rows.filter keeps) <->
      forall row, row ∈ rows -> visible row = true -> keeps row = true := by
  constructor
  · exact fun agree row member seen => (List.mem_filter.mp ((agree row seen).mp member)).2
  · intro kept row seen
    rw [List.mem_filter]
    exact ⟨fun member => ⟨member, kept row member seen⟩, fun member => member.1⟩

/-- Rows nobody sees may be added. -/
theorem agree_append {rows added : List Row}
    (hidden : forall row, row ∈ added -> visible row = false) :
    Agree visible rows (rows ++ added) := by
  intro row seen
  rw [List.mem_append]
  constructor
  · exact Or.inl
  · rintro (member | new)
    · exact member
    · rw [hidden row new] at seen
      cases seen

end RowViews
