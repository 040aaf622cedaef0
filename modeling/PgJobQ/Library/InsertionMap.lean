import Mathlib.Data.List.Basic
import Mathlib.Data.List.Nodup

/-!
# Maps in insertion order

A map keeps its entries in the order in which their keys were first set.
Setting a key that is present replaces the value where it stands, and deleting
a key that is absent does nothing.  Keys are distinct by construction.
-/

universe u v

/-- A finite map, listed in insertion order. -/
@[ext] structure InsertionMap (Key : Type u) (Value : Type v) where
  entries : List (Key × Value)
  distinct : (entries.map Prod.fst).Nodup

namespace InsertionMap

variable {Key : Type u} {Value : Type v}

def empty : InsertionMap Key Value := ⟨[], List.nodup_nil⟩

def keys (map : InsertionMap Key Value) : List Key := map.entries.map Prod.fst

def values (map : InsertionMap Key Value) : List Value := map.entries.map Prod.snd

def size (map : InsertionMap Key Value) : Nat := map.entries.length

variable [DecidableEq Key]

def get (map : InsertionMap Key Value) (key : Key) : Option Value :=
  (map.entries.find? (fun entry => entry.1 = key)).map Prod.snd

def delete (map : InsertionMap Key Value) (key : Key) : InsertionMap Key Value where
  entries := map.entries.filter (fun entry => entry.1 ≠ key)
  distinct := (List.Sublist.map _ List.filter_sublist).nodup map.distinct

def set (map : InsertionMap Key Value) (key : Key) (value : Value) : InsertionMap Key Value :=
  if present : key ∈ map.keys then
    { entries := map.entries.map (fun entry => if entry.1 = key then (key, value) else entry)
      distinct := by
        have same : (map.entries.map
            (fun entry => if entry.1 = key then (key, value) else entry)).map Prod.fst =
              map.entries.map Prod.fst := by
          rw [List.map_map]
          apply List.map_congr_left
          intro entry _
          by_cases isKey : entry.1 = key
          · simp [isKey]
          · simp [isKey]
        rw [same]
        exact map.distinct }
  else
    { entries := map.entries ++ [(key, value)]
      distinct := by
        rw [List.map_append]
        exact List.nodup_append.mpr ⟨map.distinct, List.nodup_singleton _, by
          intro other member new newMem same
          rw [same, List.mem_singleton.mp newMem] at member
          exact present member⟩ }

omit [DecidableEq Key] in
/-- A key has one value. -/
theorem eq_of_mem {map : InsertionMap Key Value} {key : Key} {first second : Value}
    (firstMem : (key, first) ∈ map.entries) (secondMem : (key, second) ∈ map.entries) :
    first = second :=
  congrArg Prod.snd (List.inj_on_of_nodup_map map.distinct firstMem secondMem rfl)

theorem get_eq_some_iff {map : InsertionMap Key Value} {key : Key} {value : Value} :
    map.get key = some value <-> (key, value) ∈ map.entries := by
  unfold get
  constructor
  · intro found
    rcases Option.map_eq_some_iff.mp found with ⟨⟨other, stored⟩, isFound, rfl⟩
    have same : other = key := by simpa using List.find?_some isFound
    exact same ▸ List.mem_of_find?_eq_some isFound
  · intro member
    cases found : map.entries.find? (fun entry => entry.1 = key) with
    | none =>
        have absent := List.find?_eq_none.mp found (key, value) member
        exact absurd (decide_eq_true rfl) absent
    | some entry =>
        rcases entry with ⟨other, stored⟩
        have same : other = key := by simpa using List.find?_some found
        subst same
        rw [Option.map_some, eq_of_mem (List.mem_of_find?_eq_some found) member]

theorem mem_keys_iff {map : InsertionMap Key Value} {key : Key} :
    key ∈ map.keys <-> Exists fun value : Value => map.get key = some value := by
  simp only [keys, List.mem_map, get_eq_some_iff, Prod.exists, exists_and_right, exists_eq_right]

theorem entries_set_of_not_mem {map : InsertionMap Key Value} {key : Key}
    (absent : Not (key ∈ map.keys)) (value : Value) :
    (map.set key value).entries = map.entries ++ [(key, value)] := by
  unfold set
  rw [dif_neg absent]

theorem entries_set_of_mem {map : InsertionMap Key Value} {key : Key}
    (present : key ∈ map.keys) (value : Value) :
    (map.set key value).entries =
      map.entries.map (fun entry => if entry.1 = key then (key, value) else entry) := by
  unfold set
  rw [dif_pos present]

theorem mem_set_iff {map : InsertionMap Key Value} {key other : Key} {value stored : Value} :
    (other, stored) ∈ (map.set key value).entries <->
      (other = key ∧ stored = value) ∨ (other ≠ key ∧ (other, stored) ∈ map.entries) := by
  by_cases present : key ∈ map.keys
  · rw [entries_set_of_mem present, List.mem_map]
    constructor
    · rintro ⟨⟨found, content⟩, member, same⟩
      by_cases isKey : found = key
      · simp only [isKey, if_true, Prod.mk.injEq] at same
        exact Or.inl ⟨same.1.symm, same.2.symm⟩
      · simp only [isKey, if_false, Prod.mk.injEq] at same
        rw [← same.1, ← same.2]
        exact Or.inr ⟨isKey, member⟩
    · rintro (⟨rfl, rfl⟩ | ⟨different, member⟩)
      · rcases List.mem_map.mp present with ⟨⟨found, content⟩, member, rfl⟩
        exact ⟨(found, content), member, if_pos rfl⟩
      · exact ⟨(other, stored), member, if_neg different⟩
  · rw [entries_set_of_not_mem present, List.mem_append, List.mem_singleton, Prod.mk.injEq]
    constructor
    · rintro (member | same)
      · refine Or.inr ⟨?_, member⟩
        rintro rfl
        exact present (List.mem_map_of_mem member)
      · exact Or.inl same
    · rintro (same | ⟨_, member⟩)
      · exact Or.inr same
      · exact Or.inl member

theorem get_set (map : InsertionMap Key Value) (key other : Key) (value : Value) :
    (map.set key value).get other = if other = key then some value else map.get other := by
  split
  · rename_i same
    exact get_eq_some_iff.mpr (mem_set_iff.mpr (Or.inl ⟨same, rfl⟩))
  · rename_i different
    apply Option.ext
    intro stored
    rw [get_eq_some_iff, get_eq_some_iff, mem_set_iff]
    simp [different]

theorem keys_set (map : InsertionMap Key Value) (key : Key) (value : Value) :
    (map.set key value).keys = if key ∈ map.keys then map.keys else map.keys ++ [key] := by
  split
  · rename_i present
    unfold keys
    rw [entries_set_of_mem present, List.map_map]
    apply List.map_congr_left
    intro entry _
    by_cases isKey : entry.1 = key
    · simp [isKey]
    · simp [isKey]
  · rename_i absent
    unfold keys
    rw [entries_set_of_not_mem absent, List.map_append]
    rfl

theorem mem_keys_set_iff {map : InsertionMap Key Value} {key other : Key} {value : Value} :
    other ∈ (map.set key value).keys <-> other = key ∨ other ∈ map.keys := by
  rw [keys_set]
  split
  · rename_i present
    exact ⟨Or.inr, fun member => member.elim (fun same => same ▸ present) id⟩
  · rw [List.mem_append, List.mem_singleton, or_comm]

theorem entries_delete (map : InsertionMap Key Value) (key : Key) :
    (map.delete key).entries = map.entries.filter (fun entry => entry.1 ≠ key) := rfl

theorem keys_delete (map : InsertionMap Key Value) (key : Key) :
    (map.delete key).keys = map.keys.filter (fun other => other ≠ key) := by
  unfold keys
  rw [entries_delete, List.filter_map]
  rfl

/-! ## Counting -/

/-- How often each key occurs in a list. -/
def tally (map : InsertionMap Key Nat) (keys : List Key) : InsertionMap Key Nat :=
  keys.foldl (fun counts key => counts.set key ((counts.get key).getD 0 + 1)) map

/-- Counting adds the occurrences to what the map had. -/
theorem get_tally (map : InsertionMap Key Nat) (keys : List Key) (key : Key) :
    (map.tally keys).get key =
      if keys.count key = 0 then map.get key
      else some ((map.get key).getD 0 + keys.count key) := by
  induction keys generalizing map with
  | nil => rfl
  | cons first keys inductionHypothesis =>
      change ((map.set first ((map.get first).getD 0 + 1)).tally keys).get key = _
      rw [inductionHypothesis, get_set, List.count_cons]
      by_cases same : key = first
      · subst same
        rw [if_pos rfl, beq_self_eq_true, if_pos rfl, if_neg (Nat.succ_ne_zero _), Option.getD_some]
        split
        · rename_i none
          rw [none]
        · rw [Nat.add_assoc, Nat.add_comm 1]
      · have different : (first == key) = false := beq_eq_false_iff_ne.mpr (Ne.symm same)
        simp only [same, if_false, different, Bool.false_eq_true, Nat.add_zero]

/-! ## Setting many keys -/

def setAll (map : InsertionMap Key Value) (entries : List (Key × Value)) : InsertionMap Key Value :=
  entries.foldl (fun map entry => map.set entry.1 entry.2) map

theorem setAll_cons (map : InsertionMap Key Value) (entry : Key × Value)
    (entries : List (Key × Value)) :
    map.setAll (entry :: entries) = (map.set entry.1 entry.2).setAll entries := rfl

theorem setAll_append (map : InsertionMap Key Value) (first second : List (Key × Value)) :
    map.setAll (first ++ second) = (map.setAll first).setAll second := List.foldl_append

theorem get_setAll_of_absent (map : InsertionMap Key Value) {entries : List (Key × Value)} {key : Key}
    (absent : forall value : Value, Not ((key, value) ∈ entries)) :
    (map.setAll entries).get key = map.get key := by
  induction entries generalizing map with
  | nil => rfl
  | cons entry entries inductionHypothesis =>
      have different : key ≠ entry.1 := by
        rintro rfl
        exact absent entry.2 List.mem_cons_self
      rw [setAll_cons, inductionHypothesis _
        (fun value member => absent value (List.mem_cons_of_mem _ member)), get_set,
        if_neg different]

/-- A key that is set to one value only. -/
theorem get_setAll_of_unique (map : InsertionMap Key Value) {entries : List (Key × Value)} {key : Key}
    {value : Value} (member : (key, value) ∈ entries)
    (unique : forall other : Value, (key, other) ∈ entries -> other = value) :
    (map.setAll entries).get key = some value := by
  induction entries generalizing map with
  | nil => cases member
  | cons entry entries inductionHypothesis =>
      rw [setAll_cons]
      by_cases again : (key, value) ∈ entries
      · exact inductionHypothesis _ again
          (fun other later => unique other (List.mem_cons_of_mem _ later))
      · have first : (key, value) = entry := by
          rcases List.mem_cons.mp member with first | later
          · exact first
          · exact absurd later again
        have absent : forall other : Value, Not ((key, other) ∈ entries) := by
          intro other later
          rw [unique other (List.mem_cons_of_mem _ later)] at later
          exact again later
        rw [get_setAll_of_absent _ absent, get_set, ← first, if_pos rfl]

/-! ## A map that follows a list of tasks -/

section Tracks

variable {Task : Type*}

/-- The map has one entry for each task, in the order in which the tasks began. -/
def Tracks (map : InsertionMap Key Value) (key : Task -> Key) (value : Task -> Value)
    (tasks : List Task) : Prop :=
  map.entries = tasks.map (fun task => (key task, value task))

variable {map : InsertionMap Key Value} {key : Task -> Key} {value : Task -> Value}
  {tasks : List Task}

omit [DecidableEq Key] in
theorem Tracks.values (tracks : map.Tracks key value tasks) : map.values = tasks.map value := by
  unfold InsertionMap.values
  rw [tracks, List.map_map]
  rfl

omit [DecidableEq Key] in
theorem Tracks.keys (tracks : map.Tracks key value tasks) : map.keys = tasks.map key := by
  unfold InsertionMap.keys
  rw [tracks, List.map_map]
  rfl

omit [DecidableEq Key] in
theorem Tracks.size (tracks : map.Tracks key value tasks) : map.size = tasks.length := by
  unfold InsertionMap.size
  rw [tracks, List.length_map]

omit [DecidableEq Key] in
/-- A map can only follow tasks that do not share a key. -/
theorem Tracks.nodup (tracks : map.Tracks key value tasks) : (tasks.map key).Nodup := by
  rw [← tracks.keys]
  exact map.distinct

/-- A task whose key is not in use can begin. -/
theorem Tracks.set (tracks : map.Tracks key value tasks) {new : Task}
    (fresh : forall task, task ∈ tasks -> key task ≠ key new) :
    (map.set (key new) (value new)).Tracks key value (tasks ++ [new]) := by
  have absent : Not (key new ∈ map.keys) := by
    rw [tracks.keys]
    intro taken
    rcases List.mem_map.mp taken with ⟨task, member, same⟩
    exact fresh task member same
  unfold Tracks
  rw [entries_set_of_not_mem absent, tracks, List.map_append]
  rfl

/-- The tasks with a key end together. -/
theorem Tracks.delete (tracks : map.Tracks key value tasks) (ended : Key) :
    (map.delete ended).Tracks key value (tasks.filter (fun task => key task ≠ ended)) := by
  unfold Tracks
  rw [entries_delete, tracks, List.filter_map]
  rfl

end Tracks

end InsertionMap
