import Mathlib.Data.List.Sort
import PgJobQ.Library.UniqueRows

/-!
# Keyset pages

A reader goes through a table page by page, from the largest key to the
smallest.  A page holds at most `limit` of the rows with a key below the cursor,
and the cursor of the next page is the last key of a full page.  The table may
be another one at every page; nothing is assumed about what happened to it in
between.  A request for a page may also be refused, and then the reader stops.

The keys that are read decrease strictly, so that the reader stops after
finitely many pages.  A key that can be read in every one of the tables is read,
if the reader comes to a page without a cursor.
-/

namespace KeysetPages

open UniqueRows

variable {Row : Type*} {Moment : Type*}

/-- The rows below the cursor that are selected, the largest key first. -/
def below (key : Row -> Nat) (selects : Row -> Bool) (cursor : Option Nat) (table : List Row) :
    List Row :=
  (table.filter (fun row => selects row && cursor.all (fun last => decide (key row < last))))
    |>.insertionSort (fun first second => key second ≤ key first)

def page (key : Row -> Nat) (selects : Row -> Bool) (limit : Nat) (cursor : Option Nat)
    (table : List Row) : List Row :=
  (below key selects cursor table).take limit

/-- A full page is continued below its last key. -/
def nextCursor (key : Row -> Nat) (limit : Nat) (rows : List Row) : Option Nat :=
  if rows.length = limit then rows.getLast?.map key else none

/-- The pages the reader is given, one at each moment. -/
def follow (key : Row -> Nat) (limit : Nat) (ask : Option Nat -> Moment -> Option (List Row)) :
    Option Nat -> List Moment -> List (List Row)
  | _, [] => []
  | cursor, moment :: moments =>
      match ask cursor moment with
      | none => []
      | some rows =>
          rows :: match nextCursor key limit rows with
            | none => []
            | some last => follow key limit ask (some last) moments

/-- The reader comes to a page without a cursor. -/
def Finished (key : Row -> Nat) (limit : Nat) (ask : Option Nat -> Moment -> Option (List Row)) :
    Option Nat -> List Moment -> Prop
  | _, [] => False
  | cursor, moment :: moments =>
      match ask cursor moment with
      | none => False
      | some rows =>
          match nextCursor key limit rows with
          | none => True
          | some last => Finished key limit ask (some last) moments

/-- Every key is below the cursor, if there is one. -/
def Under (cursor : Option Nat) (value : Nat) : Prop :=
  forall last, cursor = some last -> value < last

/-! ## One page -/

section

variable {key : Row -> Nat} {selects : Row -> Bool} {limit : Nat} {cursor : Option Nat}
variable {table : List Row}

theorem mem_below {row : Row} : row ∈ below key selects cursor table <->
    row ∈ table ∧ selects row = true ∧ Under cursor (key row) := by
  unfold below Under
  rw [List.mem_insertionSort, List.mem_filter, Bool.and_eq_true]
  cases cursor with
  | none => simp
  | some last => simp

theorem pairwise_below (unique : UniqueOn (fun row => some (key row)) table) :
    (below key selects cursor table).Pairwise (fun first second => key second < key first) := by
  have total : Std.Total (fun first second : Row => key second ≤ key first) :=
    ⟨fun first second => Nat.le_total (key second) (key first)⟩
  have trans : IsTrans Row (fun first second => key second ≤ key first) :=
    ⟨fun _ _ _ one two => Nat.le_trans two one⟩
  have sorted : (below key selects cursor table).Pairwise
      (fun first second => key second ≤ key first) :=
    List.pairwise_insertionSort (fun first second => key second ≤ key first) _
  have apart : (below key selects cursor table).Pairwise
      (fun first second => key first ≠ key second) := by
    have distinct : (table.map key).Nodup := by
      rwa [UniqueOn, List.filterMap_eq_map'] at unique
    unfold below
    rw [← List.pairwise_map]
    exact (((List.perm_insertionSort _ _).map key).nodup_iff).mpr
      (distinct.sublist (List.filter_sublist.map key))
  exact (sorted.and apart).imp (fun both => Nat.lt_of_le_of_ne both.1 (Ne.symm both.2))

theorem mem_page {row : Row} (listed : row ∈ page key selects limit cursor table) :
    row ∈ table ∧ selects row = true ∧ Under cursor (key row) :=
  mem_below.mp (List.mem_of_mem_take listed)

theorem pairwise_page (unique : UniqueOn (fun row => some (key row)) table) :
    (page key selects limit cursor table).Pairwise (fun first second => key second < key first) :=
  (pairwise_below unique).sublist (List.take_sublist _ _)

/-- The next cursor is the key of a row on the page. -/
theorem mem_of_nextCursor {rows : List Row} {last : Nat}
    (continues : nextCursor key limit rows = some last) :
    rows.length = limit ∧ Exists fun row : Row => rows.getLast? = some row ∧ key row = last := by
  unfold nextCursor at continues
  split at continues
  · rename_i full
    exact ⟨full, Option.map_eq_some_iff.mp continues⟩
  · cases continues

/-- No key of the page is below the next cursor. -/
theorem last_le {rows : List Row} {last : Nat}
    (sorted : rows.Pairwise (fun first second => key second < key first))
    (continues : nextCursor key limit rows = some last) :
    forall row, row ∈ rows -> last ≤ key row := by
  rcases mem_of_nextCursor continues with ⟨_, final, isLast, rfl⟩
  have shape : rows = rows.dropLast ++ [final] := (List.dropLast_append_getLast? final isLast).symm
  intro row member
  rw [shape] at sorted member
  rcases List.mem_append.mp member with early | same
  · exact Nat.le_of_lt ((List.pairwise_append.mp sorted).2.2 row early final List.mem_cons_self)
  · rw [List.mem_singleton.mp same]

/-- A row that can be read is on the page or below the next cursor. -/
theorem mem_page_or_below (positive : 0 < limit)
    (unique : UniqueOn (fun row => some (key row)) table) {row : Row}
    (readable : row ∈ below key selects cursor table) :
    row ∈ page key selects limit cursor table ∨ Exists fun last : Nat =>
      nextCursor key limit (page key selects limit cursor table) = some last ∧ key row < last := by
  have sorted := @pairwise_below _ key selects cursor _ unique
  unfold page
  generalize below key selects cursor table = rows at readable sorted
  rw [← List.take_append_drop limit rows, List.mem_append] at readable
  rcases readable with taken | left
  · exact Or.inl taken
  · have full : (rows.take limit).length = limit := by
      have some := List.length_pos_of_mem left
      rw [List.length_drop] at some
      rw [List.length_take]
      omega
    cases isLast : (rows.take limit).getLast? with
    | none =>
        rw [List.getLast?_eq_none_iff] at isLast
        rw [isLast] at full
        exact absurd positive (full ▸ Nat.lt_irrefl 0)
    | some final =>
        refine Or.inr ⟨key final, ?_, ?_⟩
        · unfold nextCursor
          rw [if_pos full, isLast]
          rfl
        · rw [← List.take_append_drop limit rows] at sorted
          exact (List.pairwise_append.mp sorted).2.2 final (List.mem_of_getLast? isLast) row left

end

/-! ## All pages -/

section

variable {key : Row -> Nat} {selects : Row -> Bool} {limit : Nat} {table : Moment -> List Row}
variable {ask : Option Nat -> Moment -> Option (List Row)}

/-- What is given is the page of the table at the moment. -/
def Pages (key : Row -> Nat) (selects : Row -> Bool) (limit : Nat) (table : Moment -> List Row)
    (ask : Option Nat -> Moment -> Option (List Row)) : Prop :=
  forall cursor moment rows, ask cursor moment = some rows ->
    rows = page key selects limit cursor (table moment)

/-- A page is followed by the pages below its last key. -/
theorem follow_cons {cursor : Option Nat} {moment : Moment} {rows : List Row}
    (moments : List Moment) (given : ask cursor moment = some rows) :
    follow key limit ask cursor (moment :: moments) =
      rows :: match nextCursor key limit rows with
        | none => []
        | some last => follow key limit ask (some last) moments := by
  simp only [follow, given]

/-- The keys that are read are below the cursor and decrease strictly. -/
theorem follow_decreasing (pages : Pages key selects limit table ask)
    (unique : forall moment, UniqueOn (fun row => some (key row)) (table moment))
    (cursor : Option Nat) (moments : List Moment) :
    ((follow key limit ask cursor moments).flatten.map key).Pairwise
        (fun first second => second < first) ∧
      forall value, value ∈ (follow key limit ask cursor moments).flatten.map key ->
        Under cursor value := by
  induction moments generalizing cursor with
  | nil => exact ⟨List.Pairwise.nil, fun _ member => absurd member List.not_mem_nil⟩
  | cons moment moments inductionHypothesis =>
      cases given : ask cursor moment with
      | none => simp [follow, given]
      | some rows =>
          have isPage := pages cursor moment rows given
          have sorted : rows.Pairwise (fun first second => key second < key first) :=
            isPage ▸ pairwise_page (unique moment)
          have under : forall row, row ∈ rows -> Under cursor (key row) := by
            intro row listed
            rw [isPage] at listed
            exact (mem_page listed).2.2
          rw [follow_cons moments given]
          cases continues : nextCursor key limit rows with
          | none =>
              dsimp only
              rw [List.flatten_cons, List.flatten_nil, List.append_nil]
              refine ⟨List.pairwise_map.mpr sorted, ?_⟩
              intro value member
              rcases List.mem_map.mp member with ⟨row, listed, rfl⟩
              exact under row listed
          | some last =>
              have rest := inductionHypothesis (some last)
              dsimp only
              rw [List.flatten_cons, List.map_append]
              constructor
              · refine List.pairwise_append.mpr ⟨List.pairwise_map.mpr sorted, rest.1, ?_⟩
                intro first firstMem second secondMem
                rcases List.mem_map.mp firstMem with ⟨row, listed, rfl⟩
                exact Nat.lt_of_lt_of_le (rest.2 second secondMem last rfl)
                  (last_le sorted continues row listed)
              · intro value member
                rcases List.mem_append.mp member with here | later
                · rcases List.mem_map.mp here with ⟨row, listed, rfl⟩
                  exact under row listed
                · rcases mem_of_nextCursor continues with ⟨_, final, isLast, rfl⟩
                  have bound := under final (List.mem_of_getLast? isLast)
                  intro cursor' isCursor
                  exact Nat.lt_trans (rest.2 value later _ rfl) (bound cursor' isCursor)

/-- A key that can be read in all tables is read by a reader who finishes. -/
theorem follow_complete (positive : 0 < limit) (pages : Pages key selects limit table ask)
    (unique : forall moment, UniqueOn (fun row => some (key row)) (table moment))
    {cursor : Option Nat} {moments : List Moment} (finished : Finished key limit ask cursor moments)
    {value : Nat} (under : Under cursor value)
    (stays : forall moment, moment ∈ moments.take (follow key limit ask cursor moments).length ->
      Exists fun row : Row => row ∈ table moment ∧ selects row = true ∧ key row = value) :
    value ∈ (follow key limit ask cursor moments).flatten.map key := by
  induction moments generalizing cursor with
  | nil => exact absurd finished id
  | cons moment moments inductionHypothesis =>
      unfold Finished at finished
      cases given : ask cursor moment with
      | none =>
          rw [given] at finished
          exact absurd finished id
      | some rows =>
          rw [given] at finished
          rw [follow_cons moments given] at stays ⊢
          have isPage := pages cursor moment rows given
          rcases stays moment (by simp) with ⟨row, member, selected, isKey⟩
          subst isKey
          rw [List.flatten_cons, List.map_append, List.mem_append]
          rcases mem_page_or_below positive (unique moment)
            (mem_below.mpr ⟨member, selected, under⟩) with listed | ⟨last, continues, lower⟩
          · rw [← isPage] at listed
            exact Or.inl (List.mem_map_of_mem listed)
          · rw [← isPage] at continues
            dsimp only at finished
            rw [continues] at finished stays ⊢
            refine Or.inr (inductionHypothesis finished ?_ ?_)
            · intro other isLast
              cases isLast
              exact lower
            · intro later laterMem
              exact stays later (by
                rw [List.length_cons, List.take_succ_cons]
                exact List.mem_cons_of_mem _ laterMem)

/-- Below a cursor there are at most as many pages as keys, and one more. -/
theorem length_follow_le (pages : Pages key selects limit table ask) (last : Nat)
    (moments : List Moment) :
    (follow key limit ask (some last) moments).length ≤ last + 1 := by
  induction moments generalizing last with
  | nil => exact Nat.zero_le _
  | cons moment moments inductionHypothesis =>
      cases given : ask (some last) moment with
      | none => simp [follow, given]
      | some rows =>
          rw [follow_cons moments given]
          cases continues : nextCursor key limit rows with
          | none => simp
          | some next =>
              rcases mem_of_nextCursor continues with ⟨_, final, isLast, rfl⟩
              have listed := List.mem_of_getLast? isLast
              rw [pages (some last) moment rows given] at listed
              have lower := (mem_page listed).2.2 last rfl
              have rest := inductionHypothesis (key final)
              dsimp only
              rw [List.length_cons]
              omega

/-- The number of pages is bounded by the first table, whatever happens to it
afterwards. -/
theorem length_follow_le_of_bound (pages : Pages key selects limit table ask) {bound : Nat}
    {moment : Moment} (bounded : forall row, row ∈ table moment -> key row < bound)
    (moments : List Moment) :
    (follow key limit ask none (moment :: moments)).length ≤ bound + 1 := by
  cases given : ask none moment with
  | none => simp [follow, given]
  | some rows =>
      rw [follow_cons moments given]
      cases continues : nextCursor key limit rows with
      | none => simp
      | some next =>
          rcases mem_of_nextCursor continues with ⟨_, final, isLast, rfl⟩
          have listed := List.mem_of_getLast? isLast
          rw [pages none moment rows given] at listed
          have lower := bounded final (mem_page listed).1
          have rest := length_follow_le pages (key final) moments
          dsimp only
          rw [List.length_cons]
          omega

end

end KeysetPages
