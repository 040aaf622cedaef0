import PgJobQ.Library.RowViews
import PgJobQ.Server.Responses

/-!
# The tables as some queues see them

A view shows the jobs, the schedules and the configuration rows of some of the
queues.  A key that is restricted to queues stands for two views, that of its
own queues and that of all the others.
-/

namespace PgJobQ

open RowViews UniqueRows

namespace Tables

/-- The tables hold the same rows of the queues in view. -/
structure Agree (visible : String -> Bool) (one two : Tables) : Prop where
  job : RowViews.Agree (fun row => visible row.queue) one.db.job.rows two.db.job.rows
  schedule : RowViews.Agree (fun row => visible row.queue) one.schedules.rows two.schedules.rows
  queueConfig : RowViews.Agree (fun row => visible row.queue) one.db.queueConfig.rows
    two.db.queueConfig.rows

variable {visible : String -> Bool} {one two three : Tables}

theorem Agree.refl (visible : String -> Bool) (tables : Tables) : Agree visible tables tables :=
  ⟨.refl _ _, .refl _ _, .refl _ _⟩

theorem Agree.symm (agree : Agree visible one two) : Agree visible two one :=
  ⟨agree.job.symm, agree.schedule.symm, agree.queueConfig.symm⟩

theorem Agree.trans (first : Agree visible one two) (second : Agree visible two three) :
    Agree visible one three :=
  ⟨first.job.trans second.job, first.schedule.trans second.schedule,
    first.queueConfig.trans second.queueConfig⟩

/-- The identity columns count from one. -/
structure Numbered (tables : Tables) : Prop where
  job : forall row, row ∈ tables.db.job.rows -> 0 < row.id
  schedule : forall row, row ∈ tables.schedules.rows -> 0 < row.id

theorem Numbered.find_job_zero (numbered : one.Numbered) : one.db.find 0 = none := by
  cases found : one.db.find 0 with
  | none => rfl
  | some job =>
      rcases Database.find_eq_some_iff.mp found with ⟨member, same⟩
      exact absurd same (Nat.ne_of_gt (numbered.job job member))

theorem Numbered.find_schedule_zero (numbered : one.Numbered) : one.schedules.find 0 = none := by
  cases found : one.schedules.find 0 with
  | none => rfl
  | some row =>
      rcases ScheduleTable.find_eq_some_iff.mp found with ⟨member, same⟩
      exact absurd same (Nat.ne_of_gt (numbered.schedule row member))

end Tables

/-! ## Keys that are restricted to queues -/

namespace ApiKeyRecord

variable {record : ApiKeyRecord} {queues : List String}

/-- Without a queue only the scope is asked for. -/
theorem authorizes_none (record : ApiKeyRecord) (scope : Scope) :
    record.authorizes scope none = record.scopes.contains scope := by
  unfold authorizes
  exact Bool.and_true _

theorem authorizes_some_iff (restricted : record.queues = some queues) {scope : Scope}
    {queue : String} :
    record.authorizes scope (some queue) = true <->
      record.scopes.contains scope = true ∧ queues.contains queue = true := by
  unfold authorizes
  rw [restricted, Bool.and_eq_true]

end ApiKeyRecord

/-- A request that is admitted has the scope and is well formed. -/
theorem checkRequest_eq_ok_iff {Parsed : Type} {record : ApiKeyRecord} {scope : Scope}
    {queue : Option String} {validated : Except (List Problem) Parsed} {parsed : Parsed} :
    checkRequest record scope queue validated = .ok parsed <->
      record.authorizes scope queue = true ∧ validated = .ok parsed := by
  unfold checkRequest
  cases allowed : record.authorizes scope queue with
  | false => simp
  | true =>
      cases validated with
      | error problems => simp
      | ok value => simp

theorem validateBoth_eq_ok_iff {First Second : Type} {first : Except (List Problem) First}
    {second : Except (List Problem) Second} {one : First} {two : Second} :
    validateBoth first second = .ok (one, two) <-> first = .ok one ∧ second = .ok two := by
  unfold validateBoth
  cases first with
  | error problems => cases second <;> simp
  | ok value => cases second <;> simp

theorem validateNameField_eq_ok {field text value : String}
    (valid : validateNameField field text = .ok value) : value = text := by
  unfold validateNameField at valid
  split at valid
  · exact (Except.ok.inj valid).symm
  · cases valid

theorem validateId_eq_ok_iff {text : String} {id : NumericId} :
    validateId text = .ok id <-> id.text = text := by
  unfold validateId
  constructor
  · intro valid
    split at valid
    · rw [← Except.ok.inj valid]
    · cases valid
  · rintro rfl
    rw [dif_pos id.numeric]

end PgJobQ
