import Mathlib.Data.List.Induction
import PgJobQ.Library.InsertionMap
import PgJobQ.Library.Runs

/-!
# A cache in front of a store that changes

A value is looked up in a store that others change.  The answer is kept for a
while, under the time at which the lookup was sent, and used without asking
again while it is younger than a limit.  Lookups overlap: a lookup is sent when
the cache has nothing fresh, the store answers it later, and the answer is
received later still, possibly after newer ones.  Entries may be forgotten at
any time, and lookups may fail.

Whatever is used was in the store at a time that is younger than the limit when
the value is asked for.
-/

namespace TimedCache

open Runs

variable {Key Value Store Change : Type*}

/-- A store that changes, and how it is looked up. -/
structure Source (Key Value Store Change : Type*) where
  change : Store -> Change -> Store
  lookup : Key -> Store -> Value
  limit : Int

/-- A lookup that has been sent, and the answer of the store to it. -/
structure Lookup (Key Value : Type*) where
  key : Key
  sentAt : Int
  answer : Option Value

structure State (Key Value Store : Type*) where
  now : Int
  store : Store
  cache : InsertionMap Key (Int × Value)
  lookups : List (Lookup Key Value)

/-- Time passes, the store changes, a value is asked for, the store answers a
lookup, its answer is received or lost, or an entry is forgotten. -/
inductive Label (Key Change : Type*) where
  | elapse (time : Nat)
  | change (change : Change)
  | ask (key : Key)
  | answer (index : Nat)
  | receive (index : Nat)
  | lose (index : Nat)
  | forget (key : Key)

/-- A value as it is used. -/
structure Use (Key Value : Type*) where
  key : Key
  value : Value
  askedAt : Int
  usedAt : Int

variable [DecidableEq Key]

/-- What the cache says, while it is fresh. -/
def fresh (limit : Int) (cache : InsertionMap Key (Int × Value)) (key : Key) (now : Int) :
    Option Value :=
  match cache.get key with
  | some (savedAt, value) => if now - savedAt < limit then some value else none
  | none => none

theorem fresh_eq_some_iff {limit : Int} {cache : InsertionMap Key (Int × Value)} {key : Key}
    {now : Int} {value : Value} : fresh limit cache key now = some value <->
      Exists fun savedAt : Int => cache.get key = some (savedAt, value) ∧ now - savedAt < limit := by
  unfold fresh
  cases cache.get key with
  | none =>
      constructor
      · intro none
        cases none
      · rintro ⟨_, none, _⟩
        cases none
  | some entry =>
      rcases entry with ⟨savedAt, stored⟩
      dsimp only
      split
      · rename_i young
        constructor
        · intro same
          cases same
          exact ⟨savedAt, rfl, young⟩
        · rintro ⟨_, same, _⟩
          cases same
          rfl
      · rename_i old
        constructor
        · intro none
          cases none
        · rintro ⟨_, same, young⟩
          cases same
          exact absurd young old

namespace Source

variable (source : Source Key Value Store Change)

def step (state : State Key Value Store) : Label Key Change -> State Key Value Store
  | .elapse time => { state with now := state.now + time }
  | .change change => { state with store := source.change state.store change }
  | .ask key =>
      match fresh source.limit state.cache key state.now with
      | some _ => state
      | none => { state with lookups := state.lookups ++ [⟨key, state.now, none⟩] }
  | .answer index =>
      match state.lookups[index]? with
      | some sent =>
          { state with
            lookups := state.lookups.set index
              { sent with answer := sent.answer.or (some (source.lookup sent.key state.store)) } }
      | none => state
  | .receive index =>
      match state.lookups[index]? with
      | some ⟨key, sentAt, some value⟩ =>
          { state with
            cache := state.cache.set key (sentAt, value)
            lookups := state.lookups.eraseIdx index }
      | _ => state
  | .lose index => { state with lookups := state.lookups.eraseIdx index }
  | .forget key => { state with cache := state.cache.delete key }

/-- The value that a step puts to use. -/
def use (state : State Key Value Store) : Label Key Change -> Option (Use Key Value)
  | .ask key =>
      (fresh source.limit state.cache key state.now).map
        (fun value => ⟨key, value, state.now, state.now⟩)
  | .receive index =>
      match state.lookups[index]? with
      | some ⟨key, sentAt, some value⟩ => some ⟨key, value, sentAt, state.now⟩
      | _ => none
  | _ => none

/-- Nothing has been looked up yet. -/
def start (now : Int) (store : Store) : State Key Value Store := ⟨now, store, .empty, []⟩

/-- The state after the labels. -/
abbrev after (start : State Key Value Store) (labels : List (Label Key Change)) :
    State Key Value Store := run source.step start labels

/-- At some moment of the run, no earlier than this and no later than its end,
the store had the value under the key. -/
def Had (start : State Key Value Store) (labels : List (Label Key Change)) (earliest : Int)
    (key : Key) (value : Value) : Prop :=
  Exists fun visited : List (Label Key Change) => visited <+: labels ∧
    earliest ≤ (source.after start visited).now ∧
      (source.after start visited).now ≤ (source.after start labels).now ∧
        source.lookup key (source.after start visited).store = value

/-- The store had what is in the cache, and what it has answered. -/
structure Current (start : State Key Value Store) (labels : List (Label Key Change)) : Prop where
  cached : forall key savedAt value, (key, (savedAt, value)) ∈
    (source.after start labels).cache.entries -> source.Had start labels savedAt key value
  sent : forall one, one ∈ (source.after start labels).lookups ->
    one.sentAt ≤ (source.after start labels).now
  answered : forall one value, one ∈ (source.after start labels).lookups ->
    one.answer = some value -> source.Had start labels one.sentAt one.key value

variable {source} {start : State Key Value Store} {labels : List (Label Key Change)}

theorem after_concat (label : Label Key Change) :
    source.after start (labels ++ [label]) = source.step (source.after start labels) label :=
  run_append _ _ labels [label]

/-- The clock does not go back. -/
theorem now_le_step (state : State Key Value Store) (label : Label Key Change) :
    state.now ≤ (source.step state label).now := by
  cases label with
  | elapse time => exact Int.le_add_of_nonneg_right (Int.natCast_nonneg time)
  | change change => exact Int.le_refl _
  | ask key =>
      unfold step
      dsimp only
      split
      · exact Int.le_refl _
      · exact Int.le_refl _
  | answer index =>
      unfold step
      dsimp only
      split
      · exact Int.le_refl _
      · exact Int.le_refl _
  | receive index =>
      unfold step
      dsimp only
      split
      · exact Int.le_refl _
      · exact Int.le_refl _
  | lose index => exact Int.le_refl _
  | forget key => exact Int.le_refl _

theorem Had.concat {earliest : Int} {key : Key} {value : Value}
    (had : source.Had start labels earliest key value) (label : Label Key Change) :
    source.Had start (labels ++ [label]) earliest key value := by
  rcases had with ⟨visited, within, early, late, held⟩
  refine ⟨visited, within.trans (List.prefix_append labels [label]), early, ?_, held⟩
  rw [after_concat]
  exact Int.le_trans late (now_le_step _ label)

/-- The store has it now. -/
theorem Had.now {earliest : Int} {key : Key} (early : earliest ≤ (source.after start labels).now) :
    source.Had start labels earliest key
      (source.lookup key (source.after start labels).store) :=
  ⟨labels, List.prefix_refl labels, early, Int.le_refl _, rfl⟩

/-- What is in the cache after a step was there, or has been answered. -/
theorem cached_of_step {state : State Key Value Store} {label : Label Key Change} {key : Key}
    {savedAt : Int} {value : Value}
    (stored : (key, (savedAt, value)) ∈ (source.step state label).cache.entries) :
    (key, (savedAt, value)) ∈ state.cache.entries ∨
      Lookup.mk key savedAt (some value) ∈ state.lookups := by
  cases label with
  | elapse time => exact Or.inl stored
  | change change => exact Or.inl stored
  | ask key =>
      unfold step at stored
      dsimp only at stored
      split at stored
      · exact Or.inl stored
      · exact Or.inl stored
  | answer index =>
      unfold step at stored
      dsimp only at stored
      split at stored
      · exact Or.inl stored
      · exact Or.inl stored
  | receive index =>
      unfold step at stored
      dsimp only at stored
      split at stored
      · rename_i found
        rcases InsertionMap.mem_set_iff.mp stored with ⟨rfl, same⟩ | ⟨_, older⟩
        · cases same
          exact Or.inr (List.mem_of_getElem? found)
        · exact Or.inl older
      · exact Or.inl stored
  | lose index => exact Or.inl stored
  | forget key =>
      left
      change _ ∈ (state.cache.delete key).entries at stored
      rw [InsertionMap.entries_delete] at stored
      exact List.mem_of_mem_filter stored

/-- What is looked up after a step was looked up before, has been sent by the
step, or has been answered by it. -/
theorem lookup_of_step {state : State Key Value Store} {label : Label Key Change}
    {one : Lookup Key Value} (member : one ∈ (source.step state label).lookups) :
    one ∈ state.lookups ∨ (one.sentAt = state.now ∧ one.answer = none) ∨
      Exists fun sent : Lookup Key Value => sent ∈ state.lookups ∧ one =
        { sent with answer := sent.answer.or (some (source.lookup sent.key state.store)) } := by
  cases label with
  | elapse time => exact Or.inl member
  | change change => exact Or.inl member
  | ask key =>
      unfold step at member
      dsimp only at member
      split at member
      · exact Or.inl member
      · rcases List.mem_append.mp member with older | new
        · exact Or.inl older
        · rw [List.mem_singleton.mp new]
          exact Or.inr (Or.inl ⟨rfl, rfl⟩)
  | answer index =>
      unfold step at member
      dsimp only at member
      split at member
      · rename_i sent found
        rcases List.mem_or_eq_of_mem_set member with older | answered
        · exact Or.inl older
        · exact Or.inr (Or.inr ⟨sent, List.mem_of_getElem? found, answered⟩)
      · exact Or.inl member
  | receive index =>
      unfold step at member
      dsimp only at member
      split at member
      · exact Or.inl (List.mem_of_mem_eraseIdx member)
      · exact Or.inl member
  | lose index => exact Or.inl (List.mem_of_mem_eraseIdx member)
  | forget key => exact Or.inl member

theorem Current.concat (current : source.Current start labels) (label : Label Key Change) :
    source.Current start (labels ++ [label]) := by
  have later := @now_le_step _ _ _ _ _ source (source.after start labels) label
  refine ⟨?_, ?_, ?_⟩
  · intro key savedAt value stored
    rw [after_concat] at stored
    rcases cached_of_step stored with older | answered
    · exact (current.cached key savedAt value older).concat label
    · exact (current.answered _ value answered rfl).concat label
  · intro one member
    rw [after_concat] at member ⊢
    apply Int.le_trans _ later
    rcases lookup_of_step member with older | ⟨sentAt, _⟩ | ⟨sent, older, rfl⟩
    · exact current.sent one older
    · exact Int.le_of_eq sentAt
    · exact current.sent sent older
  · intro one value member answered
    rw [after_concat] at member
    apply Had.concat
    rcases lookup_of_step member with older | ⟨_, unanswered⟩ | ⟨sent, older, rfl⟩
    · exact current.answered one value older answered
    · rw [unanswered] at answered
      cases answered
    · dsimp only at answered ⊢
      cases before : sent.answer with
      | some earlier =>
          rw [before] at answered
          cases answered
          exact current.answered sent value older before
      | none =>
          rw [before] at answered
          cases answered
          exact Had.now (current.sent sent older)

theorem current_after (now : Int) (store : Store) (labels : List (Label Key Change)) :
    source.Current (Source.start now store) labels := by
  induction labels using List.reverseRecOn with
  | nil => exact ⟨fun _ _ _ stored => absurd stored List.not_mem_nil,
      fun _ member => absurd member List.not_mem_nil,
      fun _ _ member _ => absurd member List.not_mem_nil⟩
  | append_singleton labels label inductionHypothesis => exact inductionHypothesis.concat label

/-- The value was in the store at a moment of the run that is younger than the
limit when it is asked for, and not after it is used. -/
def IsCurrent (source : Source Key Value Store Change) (start : State Key Value Store)
    (labels : List (Label Key Change)) (used : Use Key Value) : Prop :=
  Exists fun visited : List (Label Key Change) => visited <+: labels ∧
    used.askedAt < (source.after start visited).now + source.limit ∧
      (source.after start visited).now ≤ used.usedAt ∧
        source.lookup used.key (source.after start visited).store = used.value

/-- Whatever a step of a run uses is current. -/
theorem used_is_current (positive : 0 < source.limit) (now : Int) (store : Store)
    (labels : List (Label Key Change)) (label : Label Key Change) {used : Use Key Value}
    (uses : source.use (source.after (Source.start now store) labels) label = some used) :
    source.IsCurrent (Source.start now store) labels used := by
  have current := @current_after _ _ _ _ _ source now store labels
  cases label with
  | ask key =>
      rcases Option.map_eq_some_iff.mp uses with ⟨value, found, rfl⟩
      rcases fresh_eq_some_iff.mp found with ⟨savedAt, saved, young⟩
      rcases current.cached key savedAt value (InsertionMap.get_eq_some_iff.mp saved) with
        ⟨visited, within, early, late, held⟩
      refine ⟨visited, within, ?_, late, held⟩
      exact Int.lt_of_lt_of_le (Int.lt_add_of_sub_left_lt young) (Int.add_le_add_right early _)
  | receive index =>
      unfold use at uses
      dsimp only at uses
      split at uses
      · rename_i key sentAt value found
        cases uses
        rcases current.answered _ value (List.mem_of_getElem? found) rfl with
          ⟨visited, within, early, late, held⟩
        refine ⟨visited, within, ?_, late, held⟩
        exact Int.lt_of_le_of_lt early (Int.lt_add_of_pos_right _ positive)
      · cases uses
  | _ => cases uses

end Source

end TimedCache
