import PgJobQ.Library.Months

/-!
# Intervals

An interval counts months, days and microseconds apart: months have no fixed
number of days, and days have no fixed number of hours where the clocks are
changed.  So what it is to go back by an interval depends on the moment and on
the time zone.  Moments and local times are numbers of microseconds.

Going back takes the months from the local date, in which the day of the month
becomes the last one where the month is too short, then the days from the local
date, and then the microseconds from the moment.
-/

namespace Intervals

open IsoTime

structure Interval where
  months : Int
  days : Int
  micros : Int
  deriving DecidableEq, Repr

/-- The local time of each moment, and the moment a local time is taken for,
which are less than a day apart. -/
structure TimeZone where
  toLocal : Int -> Int
  fromLocal : Int -> Int
  localNear : forall moment, moment ≤ toLocal moment + 86400000000
  momentNear : forall time, time ≤ fromLocal time + 86400000000

/-- A zone in which the clocks are never changed. -/
def TimeZone.fixed (offset : Int) (west : -86400000000 ≤ offset) (east : offset ≤ 86400000000) :
    TimeZone where
  toLocal := fun moment => moment + offset
  fromLocal := fun time => time - offset
  localNear := by
    intro moment
    omega
  momentNear := by
    intro time
    omega

def dayLength : Int := 86400000000

/-- The same time of the same day of another month, or of its last day. -/
def addMonths (months time : Int) : Int :=
  let day := time / dayLength
  let month := monthFromDay day
  let target := month + months
  (dayFromMonth target + min (day - dayFromMonth month) (monthLength target - 1)) * dayLength +
    time % dayLength

namespace TimeZone

/-- What a change of the local time makes of a moment. -/
def locally (zone : TimeZone) (change : Int -> Int) (moment : Int) : Int :=
  zone.fromLocal (change (zone.toLocal moment))

/-- The moment that lies an interval before another one. -/
def subtract (zone : TimeZone) (moment : Int) (interval : Interval) : Int :=
  let byMonth := if interval.months = 0 then moment
    else zone.locally (addMonths (-interval.months)) moment
  let byDay := if interval.days = 0 then byMonth
    else zone.locally (fun time => time - interval.days * dayLength) byMonth
  byDay - interval.micros

end TimeZone

/-! ## How far an interval goes back -/

theorem dayFromMonth_add_le (month : Int) (count : Nat) :
    dayFromMonth (month + count) ≤ dayFromMonth month + 31 * count := by
  induction count with
  | zero => simp
  | succ count inductionHypothesis =>
      have next := dayFromMonth_succ (month + count)
      have short := (monthLength_range (month + count)).2
      have sum : month + (count + 1 : Nat) = month + count + 1 := by omega
      rw [sum]
      omega

/-- Another month is at most 31 days back for each month that is subtracted, and
the day of the month at most another 31. -/
theorem le_addMonths (months time : Int) :
    time ≤ addMonths months time + (31 * max (-months) 0 + 31) * dayLength := by
  have spec := monthFromDay_spec (time / dayLength)
  have back : dayFromMonth (monthFromDay (time / dayLength)) ≤
      dayFromMonth (monthFromDay (time / dayLength) + months) + 31 * max (-months) 0 := by
    by_cases forward : 0 ≤ months
    · have order := @dayFromMonth_le (monthFromDay (time / dayLength))
        (monthFromDay (time / dayLength) + months) (by omega)
      omega
    · have steps := dayFromMonth_add_le (monthFromDay (time / dayLength) + months) (-months).toNat
      have sum : monthFromDay (time / dayLength) + months + ((-months).toNat : Int) =
          monthFromDay (time / dayLength) := by omega
      rw [sum] at steps
      omega
  have long := monthLength_range (monthFromDay (time / dayLength))
  have next := dayFromMonth_succ (monthFromDay (time / dayLength))
  have target := monthLength_range (monthFromDay (time / dayLength) + months)
  unfold addMonths
  dsimp only
  generalize dayFromMonth (monthFromDay (time / dayLength) + months) = first at *
  generalize monthFromDay (time / dayLength) = month at *
  unfold dayLength at *
  omega

namespace TimeZone

variable (zone : TimeZone)

theorem le_locally {change : Int -> Int} {back : Int}
    (near : forall time, time ≤ change time + back) (moment : Int) :
    moment ≤ zone.locally change moment + (back + 2 * dayLength) := by
  have one := zone.localNear moment
  have two := near (zone.toLocal moment)
  have three := zone.momentNear (change (zone.toLocal moment))
  unfold locally dayLength
  omega

/-- Going back by an interval does not go back without bound. -/
theorem exists_reach (interval : Interval) : Exists fun reach : Int =>
    forall moment, moment ≤ zone.subtract moment interval + reach := by
  have byMonth : Exists fun reach : Int => forall moment, moment ≤ (if interval.months = 0
      then moment else zone.locally (addMonths (-interval.months)) moment) + reach := by
    split
    · exact ⟨0, fun moment => by omega⟩
    · exact ⟨_, zone.le_locally (le_addMonths (-interval.months))⟩
  have byDay : Exists fun reach : Int => forall moment, moment ≤ (if interval.days = 0 then moment
      else zone.locally (fun time => time - interval.days * dayLength) moment) + reach := by
    split
    · exact ⟨0, fun moment => by omega⟩
    · exact ⟨_, zone.le_locally (fun time =>
        Int.le_of_eq (Int.sub_add_cancel time (interval.days * dayLength)).symm)⟩
  rcases byMonth with ⟨months, byMonth⟩
  rcases byDay with ⟨days, byDay⟩
  refine ⟨months + days + interval.micros, fun moment => ?_⟩
  have one := byMonth moment
  unfold subtract
  dsimp only
  generalize (if interval.months = 0 then moment
    else zone.locally (addMonths (-interval.months)) moment) = middle at one
  have two := byDay middle
  omega

end TimeZone

/-- Where the clocks are never changed, a day is 24 hours. -/
theorem subtract_fixed {offset : Int} (west : -86400000000 ≤ offset) (east : offset ≤ 86400000000)
    (moment : Int) {interval : Interval} (noMonths : interval.months = 0) :
    (TimeZone.fixed offset west east).subtract moment interval =
      moment - (interval.days * dayLength + interval.micros) := by
  unfold TimeZone.subtract TimeZone.locally TimeZone.fixed
  dsimp only
  rw [if_pos noMonths]
  split
  · rename_i noDays
    rw [noDays]
    omega
  · omega

/-- The clocks go forward by an hour at moment zero. -/
def springForward : TimeZone where
  toLocal := fun moment => if moment < 0 then moment else moment + 3600000000
  fromLocal := fun time => if time < 3600000000 then time else time - 3600000000
  localNear := by
    intro moment
    split <;> omega
  momentNear := by
    intro time
    split <;> omega

/-- On that day a day is 23 hours, and March the 31st a month ago is the last of
February. -/
example : springForward.subtract 43200000000 ⟨0, 1, 0⟩ = -39600000000 ∧
    springForward.subtract 43200000000 ⟨0, 0, 86400000000⟩ = -43200000000 ∧
    addMonths (-1) (89 * dayLength) = 58 * dayLength := by decide

end Intervals
