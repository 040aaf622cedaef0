import PgJobQ.Worker.Backoff
import PgJobQ.Worker.Runner

/-!
# The delays written to the database

A retry is delayed by the backoff, or by what a `RetryAfterError` asks for.
The first comes through a ceiling, a jitter and a rounding and ends between
zero and the ceiling.  The second is only compared with the ceiling: a delay
that is negative or no number at all reaches the statement as it is.
-/

namespace PgJobQ

namespace RetryDelay

/-- `make_interval(secs => delay)`, which rounds to microseconds. -/
def ofSeconds : ExtendedNumber -> RetryDelay
  | .notANumber => .notANumber
  | .negativeInfinity => .negativeInfinity
  | .positiveInfinity => .positiveInfinity
  | .finite value => .finite (ExtendedNumber.roundHalfEven (value * 1000000))

end RetryDelay

/-- A thrown value together with the number a `RetryAfterError` brings, of
which the value itself keeps the interval. -/
structure TimedThrown where
  value : Thrown
  retryDelayMs : ExtendedNumber
  rounded : forall delay, value.errorClass = .retryAfter delay ->
    delay = .ofSeconds (retryDelayMs.divideBy 1000)

/-- `retryDelaySeconds` of `reportFailure`. -/
def reportDelaySeconds (opts : BackoffOptions) (attempt : Int) (e : TimedThrown)
    (random : RandomDraw) : ExtendedNumber :=
  match e.value.errorClass with
  | .retryAfter _ => (e.retryDelayMs.min (.finite opts.maxMs)).divideBy 1000
  | _ => nextDelaySeconds attempt opts random

/-- A number of seconds between zero and the ceiling. -/
def WellFormedDelay (opts : BackoffOptions) (delay : ExtendedNumber) : Prop :=
  Exists fun length : Rat => delay = .finite length ∧ 0 ≤ length ∧ length ≤ opts.maxMs / 1000

theorem wellFormed_divideBy {opts : BackoffOptions} {ms : Rat} (nonneg : 0 ≤ ms)
    (small : ms ≤ opts.maxMs) :
    WellFormedDelay opts ((ExtendedNumber.finite ms).divideBy 1000) := by
  refine ⟨ms / 1000, by rw [ExtendedNumber.divideBy, Nat.cast_ofNat], by positivity, ?_⟩
  exact div_le_div_of_nonneg_right small (by norm_num)

/-! ## Jitter -/

/-- Jitter draws from an interval below the base, and rounding does not leave
the ceiling behind. -/
theorem nextDelayMs_within (attempt : Int) (opts : BackoffOptions) (random : RandomDraw) :
    Exists fun delay : Rat => nextDelayMs attempt opts random = .finite delay ∧ 0 ≤ delay ∧
      delay ≤ opts.maxMs := by
  rcases baseDelayMs_within attempt opts with ⟨base, isBase, nonneg, small⟩
  have rounded : forall value : Rat, 0 ≤ value -> value ≤ base ->
      Exists fun delay : Rat => (ExtendedNumber.finite value).round = .finite delay ∧ 0 ≤ delay ∧
        delay ≤ opts.maxMs := by
    intro value valueNonneg below
    have within := ExtendedNumber.floor_half_within valueNonneg (le_trans below small)
    exact ⟨_, rfl, within.1, within.2⟩
  have kept : forall value : Rat, 0 ≤ value -> value ≤ base ->
      ExtendedNumber.ofExact value = .finite value := fun value valueNonneg below =>
    ExtendedNumber.ofExact_of_within valueNonneg (le_trans below small) opts.max_lt_limit
  have share : forall part : Rat, 0 ≤ part -> 0 ≤ random.value * part ∧ random.value * part ≤ part :=
    fun part partNonneg => ⟨mul_nonneg random.nonneg partNonneg,
      mul_le_of_le_one_left partNonneg (le_of_lt random.belowOne)⟩
  unfold nextDelayMs
  rw [isBase]
  dsimp only
  split
  · exact ⟨0, rfl, le_refl 0, Nat.cast_nonneg _⟩
  · cases opts.jitter with
    | none => exact rounded base nonneg (le_refl base)
    | equal =>
        have half : (ExtendedNumber.finite base).divideBy 2 = .finite (base / 2) := rfl
        have drawn := share (base / 2) (by linarith)
        have product : (ExtendedNumber.finite random.value).mul (.finite (base / 2)) =
            .finite (random.value * (base / 2)) := kept _ drawn.1 (by linarith)
        have sum : (ExtendedNumber.finite (base / 2)).add (.finite (random.value * (base / 2))) =
            .finite (base / 2 + random.value * (base / 2)) := kept _ (by linarith) (by linarith)
        dsimp only
        rw [half, product, sum]
        exact rounded _ (by linarith) (by linarith)
    | full =>
        have drawn := share base nonneg
        have product : (ExtendedNumber.finite random.value).mul (.finite base) =
            .finite (random.value * base) := kept _ drawn.1 drawn.2
        dsimp only
        rw [product]
        exact rounded _ drawn.1 drawn.2

theorem nextDelaySeconds_wellFormed (attempt : Int) (opts : BackoffOptions) (random : RandomDraw) :
    WellFormedDelay opts (nextDelaySeconds attempt opts random) := by
  rcases nextDelayMs_within attempt opts random with ⟨delay, isDelay, nonneg, small⟩
  unfold nextDelaySeconds
  rw [isDelay]
  exact wellFormed_divideBy nonneg small

/-! ## Intervals -/

/-- `maxMs` in microseconds. -/
def BackoffOptions.ceiling (opts : BackoffOptions) : Timestamp := (opts.maxMs : Int) * 1000

/-- There is room for a delay up to the ceiling after the time. -/
def LeavesRoom (opts : BackoffOptions) (now : Timestamp) : Prop :=
  -210866803200000000 ≤ now ∧ now + opts.ceiling < 9224318016000000000

/-- The interval of a well-formed delay is not negative, and the database can
add it to the time. -/
theorem WellFormedDelay.interval {opts : BackoffOptions} {delay : ExtendedNumber}
    (wellFormed : WellFormedDelay opts delay) :
    0 ≤ (RetryDelay.ofSeconds delay).length ∧
      forall now, LeavesRoom opts now -> (RetryDelay.ofSeconds delay).Expressible now := by
  rcases wellFormed with ⟨length, rfl, nonneg, small⟩
  have low : 0 ≤ ExtendedNumber.roundHalfEven (length * 1000000) := by
    have rounded := ExtendedNumber.roundHalfEven_mono
      (show ((0 : Int) : Rat) ≤ length * 1000000 by push_cast; positivity)
    rwa [ExtendedNumber.roundHalfEven_intCast] at rounded
  have high : ExtendedNumber.roundHalfEven (length * 1000000) ≤ opts.ceiling := by
    have scaled : length * 1000000 ≤ ((opts.ceiling : Int) : Rat) := by
      unfold BackoffOptions.ceiling
      push_cast
      linarith
    have rounded := ExtendedNumber.roundHalfEven_mono scaled
    rwa [ExtendedNumber.roundHalfEven_intCast] at rounded
  have week : opts.ceiling ≤ 9223372036854775807 := by
    have bounded := opts.maxBounded
    unfold BackoffOptions.ceiling
    have small : ((opts.maxMs : Int) * 1000 : Int) ≤ 9223372036854775807 := by omega
    exact small
  refine ⟨low, fun now room => ⟨⟨?_, le_trans high week⟩, ?_, ?_⟩⟩
  · exact le_trans (by decide) low
  · exact le_trans room.1 (Int.le_add_of_nonneg_right low)
  · exact lt_of_le_of_lt (Int.add_le_add_left high now) room.2

/-! ## The two statements -/

/-- The runner has the ceiling, the job the attempt, and the delay that is drawn
is the one of the backoff. -/
structure ReportSetting (opts : BackoffOptions) (attempt : Int) (random : RandomDraw)
    (runner : RunnerOptions) (job : JobRow) (draw : ReportDraw) : Prop where
  ceiling : runner.maxMs = opts.ceiling
  sameAttempt : job.attempt = attempt
  drawn : RetryDelay.finite draw.delay = .ofSeconds (nextDelaySeconds attempt opts random)

/-- The runner compares intervals with the ceiling as the source compares the
numbers. -/
theorem atMost_ofSeconds (opts : BackoffOptions) (delay : ExtendedNumber) :
    (RetryDelay.ofSeconds (delay.divideBy 1000)).atMost (opts.ceiling) =
      .ofSeconds ((delay.min (.finite opts.maxMs)).divideBy 1000) := by
  have ceiling : ((opts.maxMs : Rat) / 1000 * 1000000) = ((opts.ceiling : Int) : Rat) := by
    unfold BackoffOptions.ceiling
    push_cast
    ring
  cases delay with
  | notANumber => rfl
  | negativeInfinity => rfl
  | positiveInfinity =>
      have rounded : ExtendedNumber.roundHalfEven ((opts.maxMs : Rat) / (1000 : Nat) * 1000000) =
          opts.ceiling := by
        rw [Nat.cast_ofNat, ceiling, ExtendedNumber.roundHalfEven_intCast]
      exact congrArg RetryDelay.finite rounded.symm
  | finite value =>
      have rounded : ExtendedNumber.roundHalfEven
          (Min.min value opts.maxMs / (1000 : Nat) * 1000000) =
            Min.min (ExtendedNumber.roundHalfEven (value / (1000 : Nat) * 1000000))
              (opts.ceiling) := by
        rw [← ExtendedNumber.roundHalfEven_min_intCast, ← ceiling, Nat.cast_ofNat]
        congr 1
        rw [← min_mul_of_nonneg _ _ (by norm_num : (0 : Rat) ≤ 1000000),
          ← min_div_div_right (by norm_num : (0 : Rat) ≤ 1000)]
      exact congrArg RetryDelay.finite rounded.symm

/-- What the runner passes to `failJob` is the interval of the number the
source computes. -/
theorem retryDelay_eq {opts : BackoffOptions} {attempt : Int} {random : RandomDraw}
    {runner : RunnerOptions} {job : JobRow} {draw : ReportDraw} (e : TimedThrown)
    (setting : ReportSetting opts attempt random runner job draw) :
    retryDelay runner e.value draw = .ofSeconds (reportDelaySeconds opts attempt e random) := by
  unfold retryDelay reportDelaySeconds
  cases brought : e.value.errorClass with
  | retryAfter delay =>
      dsimp only
      rw [e.rounded delay brought, setting.ceiling, atMost_ofSeconds]
  | _ => exact setting.drawn

/-- Every retry delay is a number of seconds between zero and the ceiling, so
that neither statement fails on its interval and no retry is due before now. -/
structure DelaysWellFormed (opts : BackoffOptions) (attempt : Int) (e : TimedThrown)
    (random : RandomDraw) : Prop where
  reported : WellFormedDelay opts (reportDelaySeconds opts attempt e random)
  reaped : WellFormedDelay opts (nextDelaySeconds 1 opts random)
  failJob : forall (runner : RunnerOptions) (job : JobRow) (draw : ReportDraw) (timedOut : Bool)
    (request : FailRequest) (now : Timestamp) (db : Database),
      ReportSetting opts attempt random runner job draw ->
        failRequest runner job e.value timedOut draw = some request -> LeavesRoom opts now ->
          request.exec now db ≠ .error .intervalOutOfRange ∧
            forall executed row, request.exec now db = .ok executed -> row ∈ executed.reply.rows ->
              row.state = .available -> now ≤ row.runAt
  reapExpiredLeases : forall (limit : Nat) (locked : List Nat) (now : Timestamp) (db : Database),
    LeavesRoom opts now ->
      (RetryDelay.ofSeconds (nextDelaySeconds 1 opts random)).Expressible now ∧
        forall reply row,
          (PgJobQ.reapExpiredLeases
            ⟨limit, (RetryDelay.ofSeconds (nextDelaySeconds 1 opts random)).length⟩
            locked now db).run db = .ok reply -> row ∈ reply.rows ->
              row.state = .available -> now ≤ row.runAt

/-- The value is a `RetryAfterError` whose delay is negative or not a number. -/
def BringsBadDelay (e : TimedThrown) : Prop :=
  (Exists fun delay : RetryDelay => e.value.errorClass = .retryAfter delay) ∧
    Not ((ExtendedNumber.finite 0).le e.retryDelayMs = true)

/-- `failJob` computes `run_at` for the rows it retries. -/
theorem failJob_runAt {p : FailParams} {now : Timestamp} {job : JobRow}
    (waiting : ((PgJobQ.failJob p now).set job).state = .available) :
    ((PgJobQ.failJob p now).set job).runAt = now + p.retryDelay := by
  unfold PgJobQ.failJob at waiting ⊢
  dsimp only at waiting ⊢
  by_cases final : p.nonRetryable = true
  · rw [if_pos final] at waiting
    cases waiting
  · by_cases exhausted : job.maxAttempts ≤ job.attempt
    · rw [if_neg final, if_pos exhausted] at waiting
      cases waiting
    · simp [final, exhausted]

/-- So does the reaper. -/
theorem reapExpiredLeases_runAt {p : ReapParams} {locked : List Nat} {now : Timestamp}
    {db : Database} {job : JobRow}
    (waiting : ((PgJobQ.reapExpiredLeases p locked now db).set job).state = .available) :
    ((PgJobQ.reapExpiredLeases p locked now db).set job).runAt = now + p.retryDelay := by
  unfold PgJobQ.reapExpiredLeases at waiting ⊢
  dsimp only at waiting ⊢
  by_cases exhausted : job.maxAttempts ≤ job.attempt
  · rw [if_pos exhausted] at waiting
    cases waiting
  · exact if_neg exhausted

/-- A request with an expressible delay is executed without an error on the
interval, and a job it retries is not due before now. -/
theorem failRequest_exec {request : FailRequest} {now : Timestamp} (db : Database)
    (nonneg : 0 ≤ request.retryDelay.length) (expressible : request.retryDelay.Expressible now) :
    request.exec now db ≠ .error .intervalOutOfRange ∧
      forall executed row, request.exec now db = .ok executed -> row ∈ executed.reply.rows ->
        row.state = .available -> now ≤ row.runAt := by
  have interval : decide request.retryDelay.IsInterval = true := decide_eq_true expressible.1
  have ends : decide (request.retryDelay.EndsInRange now) = true := decide_eq_true expressible.2
  unfold FailRequest.exec Statement.report
  rw [interval, ends, Bool.not_true, Bool.and_false, Bool.and_false]
  cases request.error with
  | none =>
      constructor
      · exact fun failed => StatementError.noConfusion (Except.error.inj failed)
      · intro executed row done
        cases done
  | some record =>
      simp only [Bool.false_eq_true, if_false]
      cases ran : (Statement.failJob (request.params record)).exec now db with
      | error error =>
          constructor
          · exact fun failed => StatementError.noConfusion (Except.error.inj failed)
          · intro executed row done
            cases done
      | ok reply =>
          constructor
          · intro failed
            cases failed
          · intro executed row done listed waiting
            cases done
            have committed : (PgJobQ.failJob (request.params record) now).run db = .ok reply := ran
            change row ∈ reply.rows at listed
            rw [(Mutation.run_ok committed).2.1] at listed
            rcases Mutation.mem_returning.mp listed with ⟨old, _, _, rfl⟩
            rw [failJob_runAt waiting]
            exact Int.le_add_of_nonneg_right nonneg

/-- A delay that is at least zero is brought below the ceiling. -/
theorem wellFormed_of_nonneg (opts : BackoffOptions) {delay : ExtendedNumber}
    (nonneg : (ExtendedNumber.finite 0).le delay = true) :
    WellFormedDelay opts ((delay.min (.finite opts.maxMs)).divideBy 1000) := by
  cases delay with
  | notANumber => cases nonneg
  | negativeInfinity => cases nonneg
  | positiveInfinity => exact wellFormed_divideBy (Nat.cast_nonneg _) (le_refl _)
  | finite value =>
      have valueNonneg : 0 ≤ value := of_decide_eq_true nonneg
      exact wellFormed_divideBy (le_min valueNonneg (Nat.cast_nonneg _)) (min_le_right _ _)

/-- Any other delay passes the ceiling as it is. -/
theorem not_wellFormed_of_bad (opts : BackoffOptions) {delay : ExtendedNumber}
    (bad : Not ((ExtendedNumber.finite 0).le delay = true)) :
    Not (WellFormedDelay opts ((delay.min (.finite opts.maxMs)).divideBy 1000)) := by
  rintro ⟨length, same, nonneg, _⟩
  cases delay with
  | notANumber => cases same
  | negativeInfinity => cases same
  | positiveInfinity => exact bad rfl
  | finite value =>
      have negative : value < 0 := not_le.mp (fun valueNonneg => bad (decide_eq_true valueNonneg))
      have smaller : min value (opts.maxMs : Rat) = value :=
        min_eq_left (le_trans (le_of_lt negative) (Nat.cast_nonneg _))
      have isValue : value / (1000 : Nat) = length := by
        rw [← smaller]
        exact ExtendedNumber.finite.inj same
      have below : value / (1000 : Nat) < 0 := div_neg_of_neg_of_pos negative (by norm_num)
      linarith

/-- Every retry delay is well formed exactly when the handler has not thrown a
`RetryAfterError` with a delay that is negative or not a number. -/
theorem retry_delays_iff (opts : BackoffOptions) (attempt : Int) (e : TimedThrown)
    (random : RandomDraw) : DelaysWellFormed opts attempt e random <-> Not (BringsBadDelay e) := by
  constructor
  · rintro wellFormed ⟨⟨delay, brought⟩, bad⟩
    have reported := wellFormed.reported
    unfold reportDelaySeconds at reported
    rw [brought] at reported
    exact not_wellFormed_of_bad opts bad reported
  · intro good
    have reported : WellFormedDelay opts (reportDelaySeconds opts attempt e random) := by
      unfold reportDelaySeconds
      cases brought : e.value.errorClass with
      | retryAfter delay =>
          exact wellFormed_of_nonneg opts (not_not.mp (fun bad => good ⟨⟨delay, brought⟩, bad⟩))
      | _ => exact nextDelaySeconds_wellFormed attempt opts random
    have reaped := nextDelaySeconds_wellFormed 1 opts random
    refine ⟨reported, reaped, ?_, ?_⟩
    · intro runner job draw timedOut request now db setting built room
      rcases failRequest_eq_some built with ⟨kind, normalized, _, _, rfl⟩
      have delay : (failParams runner job e.value kind normalized draw).retryDelay =
          .ofSeconds (reportDelaySeconds opts attempt e random) := retryDelay_eq e setting
      apply failRequest_exec db
      · rw [delay]
        exact reported.interval.1
      · rw [delay]
        exact reported.interval.2 now room
    · intro limit locked now db room
      refine ⟨reaped.interval.2 now room, ?_⟩
      intro reply row committed listed waiting
      rw [(Mutation.run_ok committed).2.1] at listed
      rcases Mutation.mem_returning.mp listed with ⟨old, _, _, rfl⟩
      rw [reapExpiredLeases_runAt waiting]
      exact Int.le_add_of_nonneg_right reaped.interval.1

/-- A `RetryAfterError` with this delay. -/
def retryAfterError (retryDelayMs : ExtendedNumber) : TimedThrown where
  value := .error {
    errorClass := .retryAfter (.ofSeconds (retryDelayMs.divideBy 1000))
    name := .undefined
    message := .undefined
    stack := .undefined
    asString := none
    issues := .absent
    code := .unlike }
  retryDelayMs := retryDelayMs
  rounded := fun _ brought => (ErrorClass.retryAfter.inj brought).symm

def halfDraw : RandomDraw := ⟨1 / 2, by norm_num, by norm_num⟩

/-- A delay of minus five seconds makes the retry due five seconds ago, and a
delay that is no number cannot be made an interval. -/
theorem retryAfter_unclamped :
    Not (DelaysWellFormed defaultBackoff 1 (retryAfterError (.finite (-5000))) halfDraw) ∧
      reportDelaySeconds defaultBackoff 1 (retryAfterError (.finite (-5000))) halfDraw =
        .finite (-5) ∧
      Not (DelaysWellFormed defaultBackoff 1 (retryAfterError .notANumber) halfDraw) ∧
      reportDelaySeconds defaultBackoff 1 (retryAfterError .notANumber) halfDraw = .notANumber := by
  have negative : Not ((ExtendedNumber.finite 0).le (.finite (-5000)) = true) := by
    simp [ExtendedNumber.le]
  have noNumber : Not ((ExtendedNumber.finite 0).le .notANumber = true) := by
    simp [ExtendedNumber.le]
  refine ⟨fun wellFormed => not_wellFormed_of_bad _ negative wellFormed.reported, ?_,
    fun wellFormed => not_wellFormed_of_bad _ noNumber wellFormed.reported, rfl⟩
  change ExtendedNumber.finite (min (-5000) 3600000 / (1000 : Nat)) = .finite (-5)
  norm_num

end PgJobQ
