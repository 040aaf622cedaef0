import Mathlib.Algebra.Ring.Nat
import PgJobQ.Library.IsoTime

/-!
# Months

The months of the calendar are numbered in one sequence: month `k` is the
month `k % 12` of the year `k / 12`, counted from zero.  A day lies in exactly
one month, and every month has at least 28 days.

`dateUTC` is `Date.UTC` for a first of the month.  It takes a month beyond the
end of the year for one of the next year.
-/

namespace IsoTime

/-! ## Days of a year -/

theorem dayFromYear_succ (year : Int) :
    dayFromYear (year + 1) - dayFromYear year = if isLeapYear year then 366 else 365 := by
  have either : dayFromYear (year + 1) - dayFromYear year = 365 ∨
      dayFromYear (year + 1) - dayFromYear year = 366 := by
    unfold dayFromYear
    omega
  unfold isLeapYear
  rcases either with common | leap
  · rw [common]
    rfl
  · rw [leap]
    rfl

/-- The days of a year before one of its months. -/
def daysBefore (leap : Bool) (month : Nat) : Nat := ((monthLengths leap).take month).sum

/-- The length of a month of a year. -/
def lengthOf (leap : Bool) (month : Nat) : Nat := (monthLengths leap).getD month 0

theorem daysBefore_succ {leap : Bool} {month : Nat} (inYear : month < 12) :
    daysBefore leap (month + 1) = daysBefore leap month + lengthOf leap month := by
  have all : forall leap month, month < 12 ->
    daysBefore leap (month + 1) = daysBefore leap month + lengthOf leap month := by decide
  exact all leap month inYear

theorem daysBefore_year (leap : Bool) : daysBefore leap 12 = if leap then 366 else 365 := by
  cases leap <;> rfl

theorem lengthOf_range {leap : Bool} {month : Nat} (inYear : month < 12) :
    28 ≤ lengthOf leap month ∧ lengthOf leap month ≤ 31 := by
  have all : forall leap month, month < 12 -> 28 ≤ lengthOf leap month ∧
    lengthOf leap month ≤ 31 := by decide
  exact all leap month inYear

/-- The walk through the months stops in the month that has the day. -/
theorem splitMonths_spec {lengths : List Nat} {day : Nat} (inYear : day < lengths.sum)
    (month : Nat) : Exists fun passed : Nat => passed < lengths.length ∧
      (splitMonths lengths month day).1 = month + passed ∧
        day = (lengths.take passed).sum + (splitMonths lengths month day).2 ∧
          (splitMonths lengths month day).2 < lengths.getD passed 0 := by
  induction lengths generalizing month day with
  | nil => exact absurd inYear (Nat.not_lt_zero day)
  | cons length lengths inductionHypothesis =>
      rw [List.sum_cons] at inYear
      unfold splitMonths
      by_cases here : day < length
      · rw [if_pos here]
        exact ⟨0, Nat.succ_pos _, rfl, (Nat.zero_add day).symm, here⟩
      · rw [if_neg here]
        rcases @inductionHypothesis (day - length) (by omega) (month + 1) with
          ⟨passed, within, isMonth, isDay, inMonth⟩
        refine ⟨passed + 1, Nat.succ_lt_succ within, by omega, ?_, inMonth⟩
        rw [List.take_succ_cons, List.sum_cons]
        omega

/-! ## Months in sequence -/

/-- The day on which a month begins. -/
def dayFromMonth (month : Int) : Int :=
  dayFromYear (month / 12) + daysBefore (isLeapYear (month / 12)) (month % 12).toNat

def monthLength (month : Int) : Nat := lengthOf (isLeapYear (month / 12)) (month % 12).toNat

/-- The month of a day. -/
def monthFromDay (day : Int) : Int :=
  let year := yearFromDay day
  year * 12 + (splitMonths (monthLengths (isLeapYear year)) 0 (day - dayFromYear year).toNat).1

theorem monthLength_range (month : Int) : 28 ≤ monthLength month ∧ monthLength month ≤ 31 :=
  lengthOf_range (by omega)

/-- A month begins when the one before it ends, also in the next year. -/
theorem dayFromMonth_succ (month : Int) :
    dayFromMonth (month + 1) = dayFromMonth month + monthLength month := by
  have inYear : (month % 12).toNat < 12 := by omega
  unfold dayFromMonth monthLength
  by_cases last : month % 12 = 11
  · have nextYear : (month + 1) / 12 = month / 12 + 1 := by omega
    have first : ((month + 1) % 12).toNat = 0 := by omega
    have december : (month % 12).toNat = 11 := by omega
    have whole := @daysBefore_succ (isLeapYear (month / 12)) 11 (by decide)
    have days := dayFromYear_succ (month / 12)
    rw [daysBefore_year] at whole
    rw [nextYear, first, december]
    have none : daysBefore (isLeapYear (month / 12 + 1)) 0 = 0 := rfl
    rw [none]
    split at whole
    · rename_i leap
      rw [if_pos leap] at days
      omega
    · rename_i common
      rw [if_neg common] at days
      omega
  · have sameYear : (month + 1) / 12 = month / 12 := by omega
    have next : ((month + 1) % 12).toNat = (month % 12).toNat + 1 := by omega
    rw [sameYear, next, daysBefore_succ inYear]
    omega

theorem dayFromMonth_add (month : Int) (count : Nat) :
    dayFromMonth month + 28 * count ≤ dayFromMonth (month + count) := by
  induction count with
  | zero => simp
  | succ count inductionHypothesis =>
      have next := dayFromMonth_succ (month + count)
      have long := (monthLength_range (month + count)).1
      have sum : month + (count + 1 : Nat) = month + count + 1 := by omega
      rw [sum]
      omega

theorem dayFromMonth_le {month later : Int} (order : month ≤ later) :
    dayFromMonth month + 28 * (later - month) ≤ dayFromMonth later := by
  have apart := dayFromMonth_add month (later - month).toNat
  have sum : month + ((later - month).toNat : Int) = later := by omega
  rw [sum] at apart
  omega

/-- What the month of a day is in terms of its year. -/
theorem monthFromDay_year (day : Int) : Exists fun passed : Nat => passed < 12 ∧
    monthFromDay day = yearFromDay day * 12 + passed ∧
      (splitMonths (monthLengths (isLeapYear (yearFromDay day))) 0
        (day - dayFromYear (yearFromDay day)).toNat).1 = passed ∧
      day = dayFromYear (yearFromDay day) + daysBefore (isLeapYear (yearFromDay day)) passed +
        (splitMonths (monthLengths (isLeapYear (yearFromDay day))) 0
          (day - dayFromYear (yearFromDay day)).toNat).2 ∧
      (splitMonths (monthLengths (isLeapYear (yearFromDay day))) 0
        (day - dayFromYear (yearFromDay day)).toNat).2 <
          lengthOf (isLeapYear (yearFromDay day)) passed := by
  have year := yearFromDay_spec day
  have days := dayFromYear_succ (yearFromDay day)
  unfold monthFromDay
  dsimp only
  generalize yearFromDay day = found at year days
  have inYear : (day - dayFromYear found).toNat < (monthLengths (isLeapYear found)).sum := by
    have whole : (monthLengths (isLeapYear found)).sum = if isLeapYear found then 366 else 365 := by
      cases isLeapYear found <;> rfl
    rw [whole]
    split at days
    · rename_i leap
      rw [if_pos leap]
      omega
    · rename_i common
      rw [if_neg common]
      omega
  rcases splitMonths_spec inYear 0 with ⟨passed, within, isMonth, isDay, inMonth⟩
  rw [Nat.zero_add] at isMonth
  refine ⟨passed, within, by rw [isMonth], isMonth, ?_, inMonth⟩
  unfold daysBefore
  omega

/-- A day lies in its month. -/
theorem monthFromDay_spec (day : Int) : dayFromMonth (monthFromDay day) ≤ day ∧
    day < dayFromMonth (monthFromDay day + 1) := by
  rcases monthFromDay_year day with ⟨passed, within, isMonth, _, isDay, inMonth⟩
  have year : monthFromDay day / 12 = yearFromDay day := by omega
  have inYear : (monthFromDay day % 12).toNat = passed := by omega
  rw [dayFromMonth_succ]
  unfold dayFromMonth monthLength
  rw [year, inYear]
  omega

theorem monthFromDay_eq {month day : Int} (begun : dayFromMonth month ≤ day)
    (within : day < dayFromMonth (month + 1)) : monthFromDay day = month := by
  have spec := monthFromDay_spec day
  generalize monthFromDay day = found at spec
  rcases Int.lt_trichotomy found month with earlier | same | later
  · have order := @dayFromMonth_le (found + 1) month (by omega)
    omega
  · exact same
  · have order := @dayFromMonth_le (month + 1) found (by omega)
    omega

/-! ## Months as times -/

/-- The time at which a month begins in UTC. -/
def monthStart (month : Int) : Int := dayFromMonth month * 86400000

/-- The month of a time in UTC. -/
def monthOf (time : Int) : Int := monthFromDay (time / 86400000)

theorem monthOf_spec (time : Int) :
    monthStart (monthOf time) ≤ time ∧ time < monthStart (monthOf time + 1) := by
  have spec := monthFromDay_spec (time / 86400000)
  unfold monthStart monthOf
  omega

theorem monthOf_eq {month time : Int} (begun : monthStart month ≤ time)
    (within : time < monthStart (month + 1)) : monthOf time = month := by
  unfold monthStart at begun within
  apply monthFromDay_eq
  · omega
  · omega

/-- Months are 28 days apart, at least. -/
theorem monthStart_le {month later : Int} (order : month ≤ later) :
    monthStart month + 2419200000 * (later - month) ≤ monthStart later := by
  have apart := dayFromMonth_le order
  unfold monthStart
  omega

/-- The year and the month of a time are those of its fields. -/
theorem monthOf_fields (time : Int) :
    monthOf time = (fields time).year * 12 + ((fields time).month - 1 : Int) := by
  rcases monthFromDay_year (time / 86400000) with ⟨passed, _, isMonth, isPassed, _, _⟩
  have year : (fields time).year = yearFromDay (time / 86400000) := rfl
  have month : (fields time).month = passed + 1 := congrArg (· + 1) isPassed
  rw [year, month, monthOf, isMonth]
  omega

theorem month_range (time : Int) : 1 ≤ (fields time).month ∧ (fields time).month ≤ 12 := by
  rcases monthFromDay_year (time / 86400000) with ⟨passed, within, _, isPassed, _, _⟩
  have month : (fields time).month = passed + 1 := congrArg (· + 1) isPassed
  omega

/-- A month begins on the first. -/
theorem fields_monthStart (month : Int) : fields (monthStart month) =
    ⟨month / 12, (month % 12).toNat + 1, 1, 0, 0, 0, 0⟩ := by
  have date : monthStart month / 86400000 = dayFromMonth month := by
    unfold monthStart
    omega
  have inDay : (monthStart month % 86400000).toNat = 0 := by
    unfold monthStart
    omega
  have next := dayFromMonth_succ month
  have long := (monthLength_range month).1
  have found := @monthFromDay_eq month (dayFromMonth month) (Int.le_refl _) (by omega)
  rcases monthFromDay_year (dayFromMonth month) with ⟨passed, within, isMonth, isPassed, isDay, _⟩
  rw [found] at isMonth
  have year : yearFromDay (dayFromMonth month) = month / 12 := by omega
  have inYear : passed = (month % 12).toNat := by omega
  have begins : dayFromMonth month = dayFromYear (month / 12) +
    daysBefore (isLeapYear (month / 12)) (month % 12).toNat := rfl
  rw [year] at isPassed isDay
  have first : (splitMonths (monthLengths (isLeapYear (month / 12))) 0
      (dayFromMonth month - dayFromYear (month / 12)).toNat).2 = 0 := by
    rw [inYear] at isDay
    omega
  unfold fields
  dsimp only
  rw [date, inDay, year, isPassed, first, inYear]

/-- `new Date(Date.UTC(year, month, 1))`: a year of two digits is one of the
twentieth century. -/
def dateUTC (year month : Int) : Int :=
  monthStart ((if 0 ≤ year ∧ year ≤ 99 then 1900 + year else year) * 12 + month)

theorem dateUTC_eq {year : Int} (full : 99 < year) (month : Int) :
    dateUTC year month = monthStart (year * 12 + month) := by
  unfold dateUTC
  rw [if_neg (by omega)]

end IsoTime
