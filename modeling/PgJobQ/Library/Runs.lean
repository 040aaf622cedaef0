import Mathlib.Data.List.Basic

/-!
# Runs of a labelled machine

A machine is a total step function over labels.  A label that is not enabled
is expected to leave the state alone, so every list of labels is a run and no
enabledness side condition has to be carried through an induction.

Three questions are asked of a run: which state it ends in, whether a property
holds in every state it visits, and whether each of its steps meets a
condition on the state it starts from.  `always_iff_eachStep_of` relates the
last two: it identifies a safety property of whole runs with a condition on
single steps, once the condition is known to be both sufficient and necessary
at one step.

Two runs that differ in what their labels hide are compared state by state.
Progress asks whether a goal is reached by every run that takes enough steps of
a kind, or by a run that never ends.  The recorded machine carries the history
of its steps, newest first.
-/

namespace Runs

variable {State : Type*} {Label : Type*} {Event : Type*}

/-- The state a run ends in. -/
def run (step : State -> Label -> State) (start : State) (labels : List Label) : State :=
  labels.foldl step start

theorem run_append (step : State -> Label -> State) (start : State)
    (before after : List Label) :
    run step start (before ++ after) = run step (run step start before) after :=
  List.foldl_append

/-- A property preserved by every single step holds at the end of a run that
starts in it.  The induction is on the labels still to come. -/
theorem run_invariant {step : State -> Label -> State} {inv : State -> Prop}
    (keeps : forall state label, inv state -> inv (step state label))
    {start : State} (initially : inv start) (labels : List Label) :
    inv (run step start labels) := by
  induction labels generalizing start with
  | nil => exact initially
  | cons label labels inductionHypothesis =>
      exact inductionHypothesis (keeps start label initially)

/-- The same where only the labels of the run are known to preserve it. -/
theorem run_invariant_of_allowed {step : State -> Label -> State} {inv : State -> Prop}
    {allowed : Label -> Prop}
    (keeps : forall state label, allowed label -> inv state -> inv (step state label))
    {start : State} (initially : inv start) {labels : List Label}
    (allAllowed : forall label, label ∈ labels -> allowed label) : inv (run step start labels) := by
  induction labels generalizing start with
  | nil => exact initially
  | cons label labels inductionHypothesis =>
      exact inductionHypothesis (keeps start label (allAllowed label List.mem_cons_self) initially)
        (fun other member => allAllowed other (List.mem_cons_of_mem label member))

/-- The property holds in every state the run visits, the first and the last
one included. -/
def Always (step : State -> Label -> State) (holds : State -> Prop) :
    State -> List Label -> Prop
  | state, [] => holds state
  | state, label :: labels => holds state ∧ Always step holds (step state label) labels

/-- Each step of the run meets the condition in the state it is taken from. -/
def EachStep (step : State -> Label -> State) (meets : State -> Label -> Prop) :
    State -> List Label -> Prop
  | _, [] => True
  | state, label :: labels => meets state label ∧ EachStep step meets (step state label) labels

theorem always_head {step : State -> Label -> State} {holds : State -> Prop}
    {state : State} {labels : List Label} (always : Always step holds state labels) :
    holds state := by
  cases labels with
  | nil => exact always
  | cons label labels => exact always.1

/-- `Always` speaks about the end of every initial segment of the run. -/
theorem always_iff_forall_initial (step : State -> Label -> State) (holds : State -> Prop)
    (start : State) (labels : List Label) :
    Always step holds start labels <->
      forall visited, visited <+: labels -> holds (run step start visited) := by
  induction labels generalizing start with
  | nil =>
      constructor
      · intro always visited initial
        rw [List.prefix_nil.mp initial]
        exact always
      · intro holdsAt
        exact holdsAt [] List.prefix_rfl
  | cons label labels inductionHypothesis =>
      constructor
      · rintro ⟨now, later⟩ visited initial
        cases visited with
        | nil => exact now
        | cons first rest =>
            have same := (List.cons_prefix_cons.mp initial)
            rw [same.1]
            exact (inductionHypothesis (step start label)).mp later rest same.2
      · intro holdsAt
        refine ⟨holdsAt [] List.nil_prefix, (inductionHypothesis (step start label)).mpr ?_⟩
        intro visited initial
        exact holdsAt (label :: visited) (List.cons_prefix_cons.mpr ⟨rfl, initial⟩)

/-- What every step from any state meets, every run meets. -/
theorem eachStep_of_forall {step : State -> Label -> State} {meets : State -> Label -> Prop}
    (always : forall state label, meets state label) (start : State) (labels : List Label) :
    EachStep step meets start labels := by
  induction labels generalizing start with
  | nil => exact trivial
  | cons label labels inductionHypothesis => exact ⟨always start label, inductionHypothesis _⟩

/-- Under an invariant of all steps, two conditions on steps that agree are met
by the same runs. -/
theorem eachStep_iff_of_invariant {step : State -> Label -> State} {inv : State -> Prop}
    {meets other : State -> Label -> Prop}
    (keeps : forall state label, inv state -> inv (step state label))
    (same : forall state label, inv state -> (meets state label <-> other state label))
    {start : State} (initially : inv start) (labels : List Label) :
    EachStep step meets start labels <-> EachStep step other start labels := by
  induction labels generalizing start with
  | nil => exact Iff.rfl
  | cons label labels inductionHypothesis =>
      exact and_congr (same start label initially)
        (inductionHypothesis (keeps start label initially))

/-- A condition on single steps is enough for a safety property of runs when,
under an invariant that implies the property, a step that meets it keeps the
invariant. -/
theorem always_of_eachStep {step : State -> Label -> State} {inv holds : State -> Prop}
    {meets : State -> Label -> Prop}
    (implies : forall state, inv state -> holds state)
    (keeps : forall state label, inv state -> meets state label -> inv (step state label))
    {start : State} (initially : inv start) {labels : List Label}
    (steps : EachStep step meets start labels) : Always step holds start labels := by
  induction labels generalizing start with
  | nil => exact implies start initially
  | cons label labels inductionHypothesis =>
      exact ⟨implies start initially,
        inductionHypothesis (keeps start label initially steps.1) steps.2⟩

/-- A condition on what an observer sees of the labels is enough for a condition
on the steps when it keeps a tie between the observer and the state. -/
theorem eachStep_of_observed {Observer : Type*} {step : State -> Label -> State}
    {observe : Observer -> Label -> Observer} {tied : Observer -> State -> Prop}
    {allows : Observer -> Label -> Prop} {meets : State -> Label -> Prop}
    (keeps : forall observer state label, tied observer state -> allows observer label ->
      tied (observe observer label) (step state label))
    (implies : forall observer state label, tied observer state -> allows observer label ->
      meets state label)
    {observer : Observer} {start : State} (initially : tied observer start) {labels : List Label}
    (allowed : EachStep observe allows observer labels) : EachStep step meets start labels := by
  induction labels generalizing observer start with
  | nil => exact trivial
  | cons label labels inductionHypothesis =>
      exact ⟨implies observer start label initially allowed.1,
        inductionHypothesis (keeps observer start label initially allowed.1) allowed.2⟩

/-- A tie that every step keeps holds at the end of every run. -/
theorem run_tied {Observer : Type*} {step : State -> Label -> State}
    {observe : Observer -> Label -> Observer} {tied : Observer -> State -> Prop}
    (keeps : forall observer state label, tied observer state ->
      tied (observe observer label) (step state label))
    {observer : Observer} {start : State} (initially : tied observer start) (labels : List Label) :
    tied (run observe observer labels) (run step start labels) := by
  induction labels generalizing observer start with
  | nil => exact initially
  | cons label labels inductionHypothesis =>
      exact inductionHypothesis (keeps observer start label initially)

/-- A condition on the steps is met when every state the run visits is one from
which it is met. -/
theorem eachStep_of_visited {step : State -> Label -> State} {meets : State -> Label -> Prop}
    {start : State} {labels : List Label}
    (visited : forall before, before <+: labels -> forall label,
      meets (run step start before) label) : EachStep step meets start labels := by
  induction labels generalizing start with
  | nil => exact trivial
  | cons label labels inductionHypothesis =>
      refine ⟨visited [] List.nil_prefix label, inductionHypothesis ?_⟩
      intro before initial
      exact visited (label :: before) (List.cons_prefix_cons.mpr ⟨rfl, initial⟩)

/-- In runs whose steps meet an assumption, a safety property is exactly a
condition on the steps when, under an invariant that implies the property, a
step that meets the condition keeps the invariant and a step that violates it
destroys the property. -/
theorem always_iff_eachStep_of {step : State -> Label -> State} {inv holds : State -> Prop}
    {assumes meets : State -> Label -> Prop}
    (implies : forall state, inv state -> holds state)
    (keeps : forall state label, inv state -> assumes state label -> meets state label ->
      inv (step state label))
    (breaks : forall state label, inv state -> Not (meets state label) ->
      Not (holds (step state label)))
    {start : State} (initially : inv start) {labels : List Label}
    (assumed : EachStep step assumes start labels) :
    Always step holds start labels <-> EachStep step meets start labels := by
  induction labels generalizing start with
  | nil => exact ⟨fun _ => trivial, fun _ => implies start initially⟩
  | cons label labels inductionHypothesis =>
      by_cases met : meets start label
      · have rest := inductionHypothesis (keeps start label initially assumed.1 met) assumed.2
        exact ⟨fun always => ⟨met, rest.mp always.2⟩,
          fun steps => ⟨implies start initially, rest.mpr steps.2⟩⟩
      · constructor
        · intro always
          exact absurd (always_head always.2) (breaks start label initially met)
        · intro steps
          exact absurd steps.1 met

/-- The same without an assumption. -/
theorem always_iff_eachStep {step : State -> Label -> State} {inv holds : State -> Prop}
    {meets : State -> Label -> Prop}
    (implies : forall state, inv state -> holds state)
    (keeps : forall state label, inv state -> meets state label -> inv (step state label))
    (breaks : forall state label, inv state -> Not (meets state label) ->
      Not (holds (step state label)))
    {start : State} (initially : inv start) (labels : List Label) :
    Always step holds start labels <-> EachStep step meets start labels :=
  always_iff_eachStep_of implies (fun state label kept _ => keeps state label kept) breaks
    initially (eachStep_of_forall (fun _ _ => trivial) start labels)

/-! ## Two runs -/

/-- Two runs take labels of which only the public parts agree.  What a step
keeps alike whenever it is quiet, runs of quiet steps keep alike in all states
they visit.  Only the first run is asked whether its steps are quiet. -/
theorem alike_of_eachStep {Public : Type*} {step : State -> Label -> State}
    {publicPart : Label -> Public} {alike : State -> State -> Prop} {quiet : State -> Label -> Prop}
    (keeps : forall first second label other, alike first second ->
      publicPart label = publicPart other -> quiet first label ->
        alike (step first label) (step second other))
    {first second : State} (initially : alike first second) {labels others : List Label}
    (same : labels.map publicPart = others.map publicPart)
    (steps : EachStep step quiet first labels) (count : Nat) :
    alike (run step first (labels.take count)) (run step second (others.take count)) := by
  induction labels generalizing first second others count with
  | nil =>
      rw [List.map_eq_nil_iff.mp same.symm, List.take_nil]
      exact initially
  | cons label labels inductionHypothesis =>
      cases others with
      | nil => cases same
      | cons other others =>
          cases count with
          | zero => exact initially
          | succ count =>
              have parts := List.cons.inj same
              exact inductionHypothesis (keeps first second label other initially parts.1 steps.1)
                parts.2 steps.2 count

/-! ## Progress -/

/-- Enough counted steps lead to the goal, whatever other allowed steps are
taken between them. -/
def LeadsTo (step : State -> Label -> State) (allowed : Label -> Prop) (counted : Label -> Bool)
    (goal : State -> Prop) (start : State) : Prop :=
  Exists fun bound : Nat => forall labels, (forall label, label ∈ labels -> allowed label) ->
    bound ≤ labels.countP counted ->
      Exists fun visited : List Label => visited <+: labels ∧ goal (run step start visited)

/-- Progress by a measure: short of the goal no allowed step increases it and
a counted step decreases it.  The induction is on the labels still to come. -/
theorem leadsTo_of_measure {step : State -> Label -> State} {allowed : Label -> Prop}
    {counted : Label -> Bool} {goal inv : State -> Prop} (measure : State -> Nat)
    (keeps : forall state label, inv state -> Not (goal state) -> allowed label ->
      inv (step state label))
    (waits : forall state label, inv state -> Not (goal state) -> allowed label ->
      measure (step state label) ≤ measure state)
    (advances : forall state label, inv state -> Not (goal state) -> allowed label ->
      counted label = true -> measure (step state label) < measure state)
    {start : State} (initially : inv start) : LeadsTo step allowed counted goal start := by
  refine ⟨measure start + 1, fun labels quiet enough => ?_⟩
  induction labels generalizing start with
  | nil => exact absurd enough (Nat.not_succ_le_zero _)
  | cons label labels inductionHypothesis =>
      by_cases reached : goal start
      · exact ⟨[], List.nil_prefix, reached⟩
      · have taken := quiet label List.mem_cons_self
        have fewer : measure (step start label) + 1 ≤ labels.countP counted := by
          have wait := waits start label initially reached taken
          rw [List.countP_cons] at enough
          cases kind : counted label with
          | false =>
              simp only [kind, Bool.false_eq_true, if_false] at enough
              omega
          | true =>
              have advance := advances start label initially reached taken kind
              simp only [kind, if_true] at enough
              omega
        rcases inductionHypothesis (keeps start label initially reached taken)
          (fun other member => quiet other (List.mem_cons_of_mem label member)) fewer with
          ⟨visited, initial, there⟩
        exact ⟨label :: visited, List.cons_prefix_cons.mpr ⟨rfl, initial⟩, there⟩

/-- Goals that hold for good once they are reached are all reached by a run
that takes enough steps towards each. -/
theorem holds_of_leadsTo {step : State -> Label -> State} {inv : State -> Prop}
    {allowed : Label -> Prop} {counted : Nat -> Label -> Bool} {goal : Nat -> State -> Prop}
    {start : State} {count : Nat} (initially : inv start)
    (keeps : forall state label, inv state -> inv (step state label))
    (stays : forall index state label, inv state -> goal index state -> goal index (step state label))
    (each : forall index, index < count -> LeadsTo step allowed (counted index) (goal index) start) :
    Exists fun bound : Nat => forall labels, (forall label, label ∈ labels -> allowed label) ->
      (forall index, index < count -> bound ≤ labels.countP (counted index)) ->
        forall index, index < count -> goal index (run step start labels) := by
  induction count with
  | zero => exact ⟨0, fun _ _ _ index below => absurd below (Nat.not_lt_zero index)⟩
  | succ count inductionHypothesis =>
      rcases inductionHypothesis (fun index below => each index (Nat.lt_succ_of_lt below)) with
        ⟨bound, others⟩
      rcases each count (Nat.lt_succ_self count) with ⟨last, reaches⟩
      refine ⟨max bound last, fun labels quiet enough index below => ?_⟩
      rcases Nat.lt_succ_iff_lt_or_eq.mp below with earlier | rfl
      · exact others labels quiet (fun other lower =>
          Nat.le_trans (Nat.le_max_left bound last) (enough other (Nat.lt_succ_of_lt lower))) index earlier
      · rcases reaches labels quiet (Nat.le_trans (Nat.le_max_right bound last) (enough index below)) with
          ⟨visited, ⟨rest, rfl⟩, there⟩
        rw [run_append]
        have reached : inv (run step start visited) ∧ goal index (run step start visited) :=
          ⟨run_invariant keeps initially visited, there⟩
        exact (@run_invariant _ _ step (fun state => inv state ∧ goal index state)
          (fun state label both => ⟨keeps state label both.1, stays index state label both.1 both.2⟩)
          _ reached rest).2

/-- A trap that one counted step does not leave is never left by repeating it. -/
theorem not_leadsTo_of_trap {step : State -> Label -> State} {allowed : Label -> Prop}
    {counted : Label -> Bool} {goal trap : State -> Prop} {label : Label}
    (quiet : allowed label) (isCounted : counted label = true)
    (keeps : forall state, trap state -> trap (step state label))
    (avoids : forall state, trap state -> Not (goal state))
    {start : State} (trapped : trap start) : Not (LeadsTo step allowed counted goal start) := by
  rintro ⟨bound, reaches⟩
  have stays : forall (count : Nat) (state : State), trap state ->
      trap (run step state (List.replicate count label)) := by
    intro count
    induction count with
    | zero => exact fun state caught => caught
    | succ count inductionHypothesis =>
        exact fun state caught => inductionHypothesis _ (keeps state caught)
  have enough : bound ≤ (List.replicate bound label).countP counted :=
    Nat.le_of_eq (List.countP_replicate.trans (if_pos isCounted)).symm
  rcases reaches (List.replicate bound label)
    (fun other member => List.eq_of_mem_replicate member ▸ quiet) enough with
    ⟨visited, initial, there⟩
  have repeated : visited = List.replicate visited.length label :=
    List.eq_replicate_iff.mpr
      ⟨rfl, fun other member => List.eq_of_mem_replicate (initial.subset member)⟩
  rw [repeated] at there
  exact avoids _ (stays visited.length start trapped) there

/-! ## Unending runs -/

/-- The state an unending run is in after so many steps. -/
def stateAt (step : State -> Label -> State) (start : State) (labels : Nat -> Label) :
    Nat -> State
  | 0 => start
  | count + 1 => step (stateAt step start labels count) (labels count)

/-- The part of a run that begins after so many steps. -/
theorem stateAt_add (step : State -> Label -> State) (start : State) (labels : Nat -> Label)
    (first count : Nat) :
    stateAt step (stateAt step start labels first) (fun later => labels (first + later)) count =
      stateAt step start labels (first + count) := by
  induction count with
  | zero => rfl
  | succ count inductionHypothesis =>
      exact congrArg (fun state => step state (labels (first + count))) inductionHypothesis

/-- What each step of an unending run preserves holds after all of them. -/
theorem stateAt_invariant {step : State -> Label -> State} {inv : State -> Prop} {start : State}
    {labels : Nat -> Label}
    (keeps : forall count, inv (stateAt step start labels count) ->
      inv (stateAt step start labels (count + 1)))
    (initially : inv start) (count : Nat) : inv (stateAt step start labels count) := by
  induction count with
  | zero => exact initially
  | succ count inductionHypothesis => exact keeps count inductionHypothesis

/-- Progress by a measure along an unending run: short of the goal the measure
never increases, and again and again it decreases.  The induction is on a bound
of the measure. -/
theorem reaches_of_measure {goal : Nat -> Prop} (measure : Nat -> Nat)
    (waits : forall count, Not (goal count) -> measure (count + 1) ≤ measure count)
    (advances : forall count, (forall other, Not (goal other)) -> Exists fun later : Nat =>
      count ≤ later ∧ measure (later + 1) < measure later) :
    Exists fun count : Nat => goal count := by
  by_contra missed
  have never : forall count, Not (goal count) := not_exists.mp missed
  have falls : forall first count, first ≤ count -> measure count ≤ measure first := by
    intro first count later
    induction later with
    | refl => exact Nat.le_refl _
    | step _ inductionHypothesis => exact Nat.le_trans (waits _ (never _)) inductionHypothesis
  have above : forall bound count, Not (measure count ≤ bound) := by
    intro bound
    induction bound with
    | zero =>
        intro count none
        rcases advances count never with ⟨later, after, decreases⟩
        have fallen := falls count later after
        omega
    | succ bound inductionHypothesis =>
        intro count low
        rcases advances count never with ⟨later, after, decreases⟩
        have fallen := falls count later after
        exact inductionHypothesis (later + 1) (by omega)
  exact above (measure 0) 0 (Nat.le_refl _)

/-! ## Recording a machine -/

/-- A state together with the events recorded so far, newest first. -/
structure Recorded (State : Type*) (Event : Type*) where
  state : State
  history : List Event

/-- Record the event a step produces, if it produces one. -/
def recordStep (step : State -> Label -> State) (event : State -> Label -> Option Event)
    (recorded : Recorded State Event) (label : Label) : Recorded State Event where
  state := step recorded.state label
  history := (event recorded.state label).toList ++ recorded.history

/-- Every event of a history, newest first, meets a law that may speak of the
events before it. -/
def EachEvent (law : List Event -> Event -> Prop) : List Event -> Prop
  | [] => True
  | event :: earlier => law earlier event ∧ EachEvent law earlier

/-- Recording a step adds the law for its event. -/
theorem eachEvent_recordStep {step : State -> Label -> State}
    {event : State -> Label -> Option Event} {law : List Event -> Event -> Prop}
    {recorded : Recorded State Event} {label : Label} :
    EachEvent law (recordStep step event recorded label).history <->
      (forall new, event recorded.state label = some new -> law recorded.history new) ∧
        EachEvent law recorded.history := by
  unfold recordStep
  cases event recorded.state label with
  | none => simp
  | some new => simp [EachEvent]

end Runs
