import Mathlib.Data.Rat.Floor
import Mathlib.Tactic.Linarith
import Mathlib.Tactic.NormNum

/-!
# Extended numbers

The numbers of a floating-point format, with exact arithmetic: a rational, one
of two infinities, or not a number.  A result that is too large for the format
becomes infinite, and an operation without a result gives `notANumber`, as zero
times infinity does.

Where every operand is a small rational the operations are those of the
rationals.  Rounding to an integer, either way of breaking ties, is monotone
and fixes the integers, so it never leaves an interval whose ends are integers.
-/

inductive ExtendedNumber where
  | notANumber
  | negativeInfinity
  | positiveInfinity
  | finite (value : Rat)
  deriving DecidableEq

namespace ExtendedNumber

/-- What is not below this is too large for the format. -/
def limit : Rat := 2 ^ 1024

def ofExact (value : Rat) : ExtendedNumber :=
  if limit ≤ value then positiveInfinity
  else if value ≤ -limit then negativeInfinity
  else finite value

/-- The infinity with the sign of a number. -/
def infinity (sign : Rat) : ExtendedNumber :=
  if 0 < sign then positiveInfinity
  else if sign < 0 then negativeInfinity
  else notANumber

def mul : ExtendedNumber -> ExtendedNumber -> ExtendedNumber
  | finite first, finite second => ofExact (first * second)
  | finite first, positiveInfinity => infinity first
  | finite first, negativeInfinity => infinity (-first)
  | positiveInfinity, finite second => infinity second
  | negativeInfinity, finite second => infinity (-second)
  | positiveInfinity, positiveInfinity => positiveInfinity
  | positiveInfinity, negativeInfinity => negativeInfinity
  | negativeInfinity, positiveInfinity => negativeInfinity
  | negativeInfinity, negativeInfinity => positiveInfinity
  | _, _ => notANumber

def add : ExtendedNumber -> ExtendedNumber -> ExtendedNumber
  | finite first, finite second => ofExact (first + second)
  | finite _, infinite => infinite
  | infinite, finite _ => infinite
  | positiveInfinity, positiveInfinity => positiveInfinity
  | negativeInfinity, negativeInfinity => negativeInfinity
  | _, _ => notANumber

/-- Division by a positive integer. -/
def divideBy (divisor : Nat) : ExtendedNumber -> ExtendedNumber
  | finite value => finite (value / divisor)
  | other => other

def pow (base : Rat) (exponent : Nat) : ExtendedNumber := ofExact (base ^ exponent)

/-- The smaller of two numbers, or `notANumber` if one of them is that. -/
def min : ExtendedNumber -> ExtendedNumber -> ExtendedNumber
  | notANumber, _ => notANumber
  | _, notANumber => notANumber
  | negativeInfinity, _ => negativeInfinity
  | _, negativeInfinity => negativeInfinity
  | positiveInfinity, other => other
  | other, positiveInfinity => other
  | finite first, finite second => finite (Min.min first second)

/-- The nearest integer; of two the larger one. -/
def round : ExtendedNumber -> ExtendedNumber
  | finite value => finite ⌊value + 1 / 2⌋
  | other => other

def isFinite : ExtendedNumber -> Bool
  | finite _ => true
  | _ => false

/-- No comparison with `notANumber` holds. -/
def le : ExtendedNumber -> ExtendedNumber -> Bool
  | notANumber, _ => false
  | _, notANumber => false
  | negativeInfinity, _ => true
  | _, positiveInfinity => true
  | positiveInfinity, _ => false
  | _, negativeInfinity => false
  | finite first, finite second => decide (first ≤ second)

/-! ## Small numbers -/

/-- A number within integer bounds that the format can hold is not changed. -/
theorem ofExact_of_within {value : Rat} {bound : Nat} (nonneg : 0 ≤ value) (small : value ≤ bound)
    (holds : (bound : Rat) < limit) : ofExact value = finite value := by
  have positive : (0 : Rat) < limit := by
    unfold limit
    positivity
  unfold ofExact
  rw [if_neg (by linarith), if_neg (by linarith)]

/-- A number that is not negative becomes infinite or stays what it is. -/
theorem ofExact_of_nonneg {value : Rat} (nonneg : 0 ≤ value) :
    ofExact value = if limit ≤ value then positiveInfinity else finite value := by
  have positive : (0 : Rat) < limit := by
    unfold limit
    positivity
  unfold ofExact
  rw [if_neg (show Not (value ≤ -limit) by linarith)]

/-! ## Rounding -/

/-- The nearest integer; of two the even one. -/
def roundHalfEven (value : Rat) : Int :=
  if value - ⌊value⌋ < 1 / 2 then ⌊value⌋
  else if 1 / 2 < value - ⌊value⌋ then ⌊value⌋ + 1
  else ⌊value⌋ + ⌊value⌋ % 2

theorem roundHalfEven_bounds (value : Rat) :
    ⌊value⌋ ≤ roundHalfEven value ∧ roundHalfEven value ≤ ⌊value⌋ + 1 := by
  unfold roundHalfEven
  split
  · omega
  · split
    · omega
    · omega

@[simp] theorem roundHalfEven_intCast (value : Int) : roundHalfEven value = value := by
  unfold roundHalfEven
  rw [Int.floor_intCast, sub_self, if_pos (by norm_num)]

theorem roundHalfEven_mono {first second : Rat} (le : first ≤ second) :
    roundHalfEven first ≤ roundHalfEven second := by
  have floors : ⌊first⌋ ≤ ⌊second⌋ := Int.floor_le_floor le
  have low := (roundHalfEven_bounds first).2
  have high := (roundHalfEven_bounds second).1
  rcases Int.lt_or_eq_of_le floors with below | same
  · omega
  · -- both lie between the same two integers, and the fractions compare
    unfold roundHalfEven
    rw [same]
    split_ifs
    all_goals first | omega | linarith

theorem roundHalfEven_min_intCast (value : Rat) (bound : Int) :
    roundHalfEven (Min.min value bound) = Min.min (roundHalfEven value) bound := by
  rcases le_total value bound with below | above
  · have rounded := roundHalfEven_mono below
    rw [roundHalfEven_intCast] at rounded
    rw [min_eq_left below, min_eq_left rounded]
  · have rounded := roundHalfEven_mono above
    rw [roundHalfEven_intCast] at rounded
    rw [min_eq_right above, min_eq_right rounded, roundHalfEven_intCast]

/-- Rounding half up stays within integer bounds. -/
theorem floor_half_within {value : Rat} {bound : Nat} (nonneg : 0 ≤ value) (small : value ≤ bound) :
    (0 : Rat) ≤ ⌊value + 1 / 2⌋ ∧ (⌊value + 1 / 2⌋ : Rat) ≤ bound := by
  have low : 0 ≤ ⌊value + 1 / 2⌋ := Int.floor_nonneg.mpr (by linarith)
  have high : ⌊value + 1 / 2⌋ < (bound : Int) + 1 := by
    apply Int.floor_lt.mpr
    push_cast
    linarith
  have atMost : ⌊value + 1 / 2⌋ ≤ (bound : Int) := Int.lt_add_one_iff.mp high
  constructor
  · exact_mod_cast low
  · exact_mod_cast atMost

end ExtendedNumber
