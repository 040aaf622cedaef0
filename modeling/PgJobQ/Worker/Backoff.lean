import PgJobQ.Library.ExtendedNumbers

/-!
# Retry backoff

`backoff.ts` is pure: the delay before the next retry is a function of the
attempt, of the options and of one random draw.  Its numbers are JavaScript
numbers with exact arithmetic, so growth that is too large is infinite and zero
times infinity is no number.

`baseDelayMs` replaces every raw delay that is not finite by the ceiling.  That
is the value of the capped exponential wherever the delay before the first
retry is positive.  Where it is zero every delay should be zero.
-/

namespace PgJobQ

inductive JitterStrategy where
  | none
  | equal
  | full
  deriving DecidableEq, Repr

/-- `BackoffOptions`, as far as `loadConfig` accepts them. -/
structure BackoffOptions where
  initialMs : Nat
  multiplier : Rat
  maxMs : Nat
  jitter : JitterStrategy
  initialBounded : initialMs ≤ 3600000
  multiplierAtLeast : 1 ≤ multiplier
  multiplierBounded : multiplier ≤ 100
  maxBounded : maxMs ≤ 604800000
  ordered : initialMs ≤ maxMs

/-- What `Math.random()` returns. -/
structure RandomDraw where
  value : Rat
  nonneg : 0 ≤ value
  belowOne : value < 1

open ExtendedNumber in
def baseDelayMs (attempt : Int) (opts : BackoffOptions) : ExtendedNumber :=
  if attempt < 1 then finite 0
  else
    let growth := pow opts.multiplier (attempt - 1).toNat
    let raw := (finite opts.initialMs).mul growth
    if !raw.isFinite then finite opts.maxMs
    else (finite opts.maxMs).min raw

open ExtendedNumber in
def nextDelayMs (attempt : Int) (opts : BackoffOptions) (random : RandomDraw) : ExtendedNumber :=
  let base := baseDelayMs attempt opts
  if base.le (finite 0) then finite 0
  else
    match opts.jitter with
    | .none => base.round
    | .equal => ((base.divideBy 2).add ((finite random.value).mul (base.divideBy 2))).round
    | .full => ((finite random.value).mul base).round

def nextDelaySeconds (attempt : Int) (opts : BackoffOptions) (random : RandomDraw) :
    ExtendedNumber :=
  (nextDelayMs attempt opts random).divideBy 1000

namespace BackoffOptions

variable (opts : BackoffOptions)

/-- The growth of the delay before a delivery. -/
def growth (attempt : Int) : Rat := opts.multiplier ^ (attempt - 1).toNat

/-- `min(maxMs, initialMs * multiplier^(attempt - 1))`. -/
def cappedExponential (attempt : Int) : Rat := min opts.maxMs (opts.initialMs * opts.growth attempt)

/-- There is a delay to cap, none of it before the first retry, and the growth
is too large for a number. -/
def LosesZero (attempt : Int) : Prop :=
  opts.initialMs = 0 ∧ 0 < opts.maxMs ∧ ExtendedNumber.limit ≤ opts.growth attempt

theorem one_le_growth (attempt : Int) : 1 ≤ opts.growth attempt :=
  one_le_pow₀ opts.multiplierAtLeast

theorem growth_mono {earlier attempt : Int} (le : earlier ≤ attempt) :
    opts.growth earlier ≤ opts.growth attempt :=
  pow_le_pow_right₀ opts.multiplierAtLeast (Int.toNat_le_toNat (by omega))

/-- The ceiling is a week at most, which is far below the limit of a number. -/
theorem max_lt_limit : (opts.maxMs : Rat) < ExtendedNumber.limit := by
  have bounded : (opts.maxMs : Rat) ≤ 604800000 := by
    exact_mod_cast opts.maxBounded
  have small : (604800000 : Rat) < 2 ^ 30 := by norm_num
  have large : (2 : Rat) ^ 30 ≤ ExtendedNumber.limit :=
    pow_le_pow_right₀ (by norm_num) (by norm_num)
  linarith

theorem raw_nonneg (attempt : Int) : (0 : Rat) ≤ opts.initialMs * opts.growth attempt :=
  mul_nonneg (Nat.cast_nonneg _) (le_trans zero_le_one (opts.one_le_growth attempt))

/-- A raw delay that is too large is capped. -/
theorem cappedExponential_of_large {attempt : Int}
    (large : ExtendedNumber.limit ≤ opts.initialMs * opts.growth attempt) :
    opts.cappedExponential attempt = opts.maxMs :=
  min_eq_left (le_trans (le_of_lt opts.max_lt_limit) large)

/-- The delays of the capped exponential never shrink. -/
theorem cappedExponential_mono {earlier attempt : Int} (le : earlier ≤ attempt) :
    opts.cappedExponential earlier ≤ opts.cappedExponential attempt :=
  min_le_min_left _ (mul_le_mul_of_nonneg_left (opts.growth_mono le) (Nat.cast_nonneg _))

end BackoffOptions

/-- The raw delay is the product, unless zero meets growth that is too large. -/
theorem rawDelayMs_eq (opts : BackoffOptions) (attempt : Int) :
    (ExtendedNumber.finite opts.initialMs).mul
        (ExtendedNumber.pow opts.multiplier (attempt - 1).toNat) =
      if opts.initialMs = 0 ∧ ExtendedNumber.limit ≤ opts.growth attempt then .notANumber
      else if ExtendedNumber.limit ≤ opts.initialMs * opts.growth attempt then .positiveInfinity
      else .finite (opts.initialMs * opts.growth attempt) := by
  have growthNonneg : 0 ≤ opts.growth attempt := le_trans zero_le_one (opts.one_le_growth attempt)
  have grown : ExtendedNumber.pow opts.multiplier (attempt - 1).toNat =
      if ExtendedNumber.limit ≤ opts.growth attempt then .positiveInfinity
      else .finite (opts.growth attempt) := ExtendedNumber.ofExact_of_nonneg growthNonneg
  rw [grown]
  by_cases large : ExtendedNumber.limit ≤ opts.growth attempt
  · rw [if_pos large]
    by_cases zero : opts.initialMs = 0
    · rw [if_pos ⟨zero, large⟩, zero]
      rfl
    · have atLeastOne : (1 : Rat) ≤ opts.initialMs :=
        Nat.one_le_cast.mpr (Nat.pos_of_ne_zero zero)
      have product : ExtendedNumber.limit ≤ opts.initialMs * opts.growth attempt :=
        le_trans large (le_mul_of_one_le_left growthNonneg atLeastOne)
      rw [if_neg (fun lost => zero lost.1), if_pos product]
      exact if_pos (lt_of_lt_of_le zero_lt_one atLeastOne)
  · rw [if_neg large, if_neg (fun lost => large lost.2)]
    exact ExtendedNumber.ofExact_of_nonneg (opts.raw_nonneg attempt)

/-- The delay is the capped exponential unless a zero is lost to the ceiling. -/
theorem baseDelayMs_eq (opts : BackoffOptions) {attempt : Int} (counted : 1 ≤ attempt) :
    baseDelayMs attempt opts =
      if opts.initialMs = 0 ∧ ExtendedNumber.limit ≤ opts.growth attempt then
        .finite opts.maxMs
      else .finite (opts.cappedExponential attempt) := by
  unfold baseDelayMs
  rw [if_neg (Int.not_lt.mpr counted)]
  dsimp only
  rw [rawDelayMs_eq]
  by_cases lost : opts.initialMs = 0 ∧ ExtendedNumber.limit ≤ opts.growth attempt
  · simp only [if_pos lost]
    rfl
  · simp only [if_neg lost]
    by_cases product : ExtendedNumber.limit ≤ opts.initialMs * opts.growth attempt
    · rw [if_pos product, opts.cappedExponential_of_large product]
      rfl
    · rw [if_neg product]
      rfl

/-- The delay before any delivery lies between zero and the ceiling. -/
theorem baseDelayMs_within (attempt : Int) (opts : BackoffOptions) :
    Exists fun base : Rat => baseDelayMs attempt opts = .finite base ∧ 0 ≤ base ∧
      base ≤ opts.maxMs := by
  by_cases early : attempt < 1
  · exact ⟨0, if_pos early, le_refl 0, Nat.cast_nonneg _⟩
  · rw [baseDelayMs_eq opts (Int.not_lt.mp early)]
    split
    · exact ⟨opts.maxMs, rfl, Nat.cast_nonneg _, le_refl _⟩
    · exact ⟨opts.cappedExponential attempt, rfl,
        le_min (Nat.cast_nonneg _) (opts.raw_nonneg attempt), min_le_left _ _⟩

/-- The delay before a delivery is the capped exponential, and no delay before
an earlier one is longer. -/
structure IsCappedExponential (opts : BackoffOptions) (attempt : Int) : Prop where
  formula : baseDelayMs attempt opts = .finite (opts.cappedExponential attempt)
  monotone : forall earlier, 1 ≤ earlier -> earlier ≤ attempt ->
    (baseDelayMs earlier opts).le (baseDelayMs attempt opts) = true

/-- Delays never shrink, whether a zero is lost or not. -/
theorem baseDelayMs_mono (opts : BackoffOptions) {earlier attempt : Int} (counted : 1 ≤ earlier)
    (le : earlier ≤ attempt) : (baseDelayMs earlier opts).le (baseDelayMs attempt opts) = true := by
  rw [baseDelayMs_eq opts counted, baseDelayMs_eq opts (Int.le_trans counted le)]
  have capped : opts.cappedExponential earlier ≤ opts.maxMs := min_le_left _ _
  by_cases lost : opts.initialMs = 0 ∧ ExtendedNumber.limit ≤ opts.growth earlier
  · rw [if_pos lost, if_pos ⟨lost.1, le_trans lost.2 (opts.growth_mono le)⟩]
    exact decide_eq_true (le_refl _)
  · rw [if_neg lost]
    split
    · exact decide_eq_true capped
    · exact decide_eq_true (opts.cappedExponential_mono le)

/-- The delay before a delivery is the capped exponential exactly when no zero
is lost to the ceiling. -/
theorem backoff_exponential_iff (opts : BackoffOptions) {attempt : Int} (counted : 1 ≤ attempt) :
    IsCappedExponential opts attempt <-> Not (opts.LosesZero attempt) := by
  have formula := baseDelayMs_eq opts counted
  constructor
  · rintro capped ⟨zero, positive, large⟩
    rw [if_pos ⟨zero, large⟩, capped.formula] at formula
    have sameDelay := ExtendedNumber.finite.inj formula
    have nothing : opts.cappedExponential attempt = 0 := by
      unfold BackoffOptions.cappedExponential
      rw [zero, Nat.cast_zero, zero_mul]
      exact min_eq_right (Nat.cast_nonneg _)
    rw [nothing] at sameDelay
    exact Nat.cast_ne_zero.mpr (Nat.pos_iff_ne_zero.mp positive) sameDelay.symm
  · intro kept
    refine ⟨?_, fun earlier first le => baseDelayMs_mono opts first le⟩
    rw [formula]
    split
    · rename_i lost
      have none : opts.maxMs = 0 :=
        Nat.eq_zero_of_not_pos (fun positive => kept ⟨lost.1, positive, lost.2⟩)
      have capped : opts.cappedExponential attempt = 0 := by
        unfold BackoffOptions.cappedExponential
        rw [none, lost.1, Nat.cast_zero, zero_mul, min_self]
      rw [capped, none, Nat.cast_zero]
    · rfl

/-- The defaults of the configuration. -/
def defaultBackoff : BackoffOptions where
  initialMs := 1000
  multiplier := 2
  maxMs := 3600000
  jitter := .full
  initialBounded := by norm_num
  multiplierAtLeast := by norm_num
  multiplierBounded := by norm_num
  maxBounded := by norm_num
  ordered := by norm_num

theorem defaultBackoff_exponential_iff :
    IsCappedExponential defaultBackoff 4 <-> Not (defaultBackoff.LosesZero 4) :=
  backoff_exponential_iff defaultBackoff (by decide)

/-- No delay before the first retry, and the largest multiplier. -/
def immediateBackoff : BackoffOptions where
  initialMs := 0
  multiplier := 100
  maxMs := 3600000
  jitter := .none
  initialBounded := by norm_num
  multiplierAtLeast := by norm_num
  multiplierBounded := by norm_num
  maxBounded := by norm_num
  ordered := by norm_num

/-- After 156 deliveries a job that is to be retried immediately waits for an
hour. -/
theorem immediate_retry_waits :
    baseDelayMs 156 immediateBackoff = .finite 3600000 ∧
      immediateBackoff.cappedExponential 156 = 0 ∧ Not (IsCappedExponential immediateBackoff 156) := by
  have large : ExtendedNumber.limit ≤ immediateBackoff.growth 156 := by
    have factor : (2 : Rat) ^ 205 ≤ 100 ^ 31 := by norm_num
    calc ExtendedNumber.limit ≤ 2 ^ (205 * 5) := pow_le_pow_right₀ (by norm_num) (by norm_num)
      _ = ((2 : Rat) ^ 205) ^ 5 := pow_mul 2 205 5
      _ ≤ (100 ^ 31) ^ 5 := pow_le_pow_left₀ (by positivity) factor 5
      _ = immediateBackoff.growth 156 := (pow_mul (100 : Rat) 31 5).symm
  have waits : baseDelayMs 156 immediateBackoff = .finite 3600000 := by
    rw [baseDelayMs_eq immediateBackoff (by decide), if_pos ⟨rfl, large⟩]
    norm_num [immediateBackoff]
  have nothing : immediateBackoff.cappedExponential 156 = 0 := by
    norm_num [BackoffOptions.cappedExponential, immediateBackoff]
  refine ⟨waits, nothing, fun capped => ?_⟩
  have same := capped.formula
  rw [waits, nothing] at same
  exact absurd (ExtendedNumber.finite.inj same) (by norm_num)

end PgJobQ
