import Mathlib.Data.List.Basic

/-!
# Times in ISO 8601 form

A time is a number of milliseconds since the beginning of 1970 in the
proleptic Gregorian calendar.  Its text is the one of `Date.toISOString`: a
year of four digits, or of six with a sign, and the other fields in digits of
fixed width between fixed separators, in UTC.

Different times have different texts.  The fields determine the time because
each is what is left by the ones before it; the text determines the fields
because no separator is a digit.
-/

namespace IsoTime

/-! ## Padded decimals -/

/-- The decimal digits of a number, with zeros in front up to a width. -/
def padded (width number : Nat) : List Char :=
  List.replicate (width - (Nat.toDigits 10 number).length) '0' ++ Nat.toDigits 10 number

theorem ofDigitChars_padded (width number : Nat) :
    Nat.ofDigitChars 10 (padded width number) 0 = number := by
  unfold padded
  rw [Nat.ofDigitChars_append, Nat.ofDigitChars_replicate_zero, Nat.mul_zero,
    Nat.ofDigitChars_ten_toDigits]

theorem padded_inj {width number other : Nat} (same : padded width number = padded width other) :
    number = other := by
  rw [← ofDigitChars_padded width number, same, ofDigitChars_padded]

theorem isDigit_of_mem_padded {width number : Nat} {c : Char} (member : c ∈ padded width number) :
    c.isDigit = true := by
  rcases List.mem_append.mp member with zero | digit
  · rw [List.eq_of_mem_replicate zero]
    rfl
  · exact Nat.isDigit_of_mem_toDigits (by decide) (Nat.le_refl 10) digit

theorem not_mem_padded {width number : Nat} {c : Char} (separator : c.isDigit = false) :
    Not (c ∈ padded width number) := by
  intro member
  rw [isDigit_of_mem_padded member] at separator
  cases separator

theorem padded_ne_nil (width number : Nat) : padded width number ≠ [] :=
  List.append_ne_nil_of_right_ne_nil _ Nat.toDigits_ne_nil

/-- What stands before the first separator can be read off. -/
theorem append_separator_inj {c : Char} {chars others rest rest' : List Char}
    (absent : Not (c ∈ chars)) (otherAbsent : Not (c ∈ others))
    (same : chars ++ c :: rest = others ++ c :: rest') : chars = others ∧ rest = rest' := by
  induction chars generalizing others with
  | nil =>
      cases others with
      | nil => exact ⟨rfl, (List.cons.inj same).2⟩
      | cons head tail =>
          have isHead : c = head := (List.cons.inj same).1
          exact absurd (isHead ▸ List.mem_cons_self) otherAbsent
  | cons first chars inductionHypothesis =>
      cases others with
      | nil =>
          have isFirst : first = c := (List.cons.inj same).1
          exact absurd (isFirst ▸ List.mem_cons_self) absent
      | cons head tail =>
          have heads := List.cons.inj same
          have tails := inductionHypothesis (fun member => absent (List.mem_cons_of_mem _ member))
            (fun member => otherAbsent (List.mem_cons_of_mem _ member)) heads.2
          exact ⟨by rw [heads.1, tails.1], tails.2⟩

theorem padded_append_inj {width number other : Nat} {c : Char} {rest others : List Char}
    (separator : c.isDigit = false)
    (same : padded width number ++ c :: rest = padded width other ++ c :: others) :
    number = other ∧ rest = others := by
  have parts := append_separator_inj (not_mem_padded separator) (not_mem_padded separator) same
  exact ⟨padded_inj parts.1, parts.2⟩

/-! ## The calendar -/

/-- The day on which a year begins, counted from the beginning of 1970. -/
def dayFromYear (year : Int) : Int :=
  365 * (year - 1970) + (year - 1969) / 4 - (year - 1901) / 100 + (year - 1601) / 400

/-- The year of a day: 400 years have 146097 days, which is never more than a
year off. -/
def yearFromDay (day : Int) : Int :=
  let guess := 1970 + day * 400 / 146097
  if dayFromYear (guess + 1) ≤ day then guess + 1
  else if dayFromYear guess ≤ day then guess
  else guess - 1

theorem yearFromDay_spec (day : Int) :
    dayFromYear (yearFromDay day) ≤ day ∧ day < dayFromYear (yearFromDay day + 1) := by
  unfold yearFromDay
  dsimp only
  split
  · rename_i later
    refine ⟨later, ?_⟩
    unfold dayFromYear
    omega
  · rename_i notLater
    split
    · rename_i guessed
      exact ⟨guessed, Int.not_le.mp notLater⟩
    · rename_i earlier
      refine ⟨?_, ?_⟩
      · unfold dayFromYear
        omega
      · rw [Int.sub_add_cancel]
        exact Int.not_le.mp earlier

def isLeapYear (year : Int) : Bool := dayFromYear (year + 1) - dayFromYear year = 366

def monthLengths (leap : Bool) : List Nat :=
  [31, if leap then 29 else 28, 31, 30, 31, 30, 31, 31, 30, 31, 30, 31]

/-- Walk through the months a day of the year lies behind. -/
def splitMonths : List Nat -> Nat -> Nat -> Nat × Nat
  | [], month, day => (month, day)
  | length :: lengths, month, day =>
      if day < length then (month, day) else splitMonths lengths (month + 1) (day - length)

theorem le_splitMonths (lengths : List Nat) (month day : Nat) :
    month ≤ (splitMonths lengths month day).1 := by
  induction lengths generalizing month day with
  | nil => exact Nat.le_refl month
  | cons length lengths inductionHypothesis =>
      unfold splitMonths
      split
      · exact Nat.le_refl month
      · exact Nat.le_of_succ_le (inductionHypothesis (month + 1) (day - length))

theorem splitMonths_inj {lengths : List Nat} {month day other : Nat}
    (same : splitMonths lengths month day = splitMonths lengths month other) : day = other := by
  induction lengths generalizing month day other with
  | nil => exact congrArg Prod.snd same
  | cons length lengths inductionHypothesis =>
      have later := fun rest => le_splitMonths lengths (month + 1) rest
      unfold splitMonths at same
      split at same
      · split at same
        · exact congrArg Prod.snd same
        · have isMonth : month = (splitMonths lengths (month + 1) (other - length)).1 :=
            congrArg Prod.fst same
          have beyond := later (other - length)
          omega
      · split at same
        · have isMonth : (splitMonths lengths (month + 1) (day - length)).1 = month :=
            congrArg Prod.fst same
          have beyond := later (day - length)
          omega
        · have rest := inductionHypothesis same
          omega

structure Fields where
  year : Int
  month : Nat
  day : Nat
  hour : Nat
  minute : Nat
  second : Nat
  millisecond : Nat
  deriving DecidableEq, Repr

/-- The fields of a time. -/
def fields (time : Int) : Fields :=
  let date := time / 86400000
  let inDay := (time % 86400000).toNat
  let year := yearFromDay date
  let inYear := splitMonths (monthLengths (isLeapYear year)) 0 (date - dayFromYear year).toNat
  { year := year
    month := inYear.1 + 1
    day := inYear.2 + 1
    hour := inDay / 3600000
    minute := inDay / 60000 % 60
    second := inDay / 1000 % 60
    millisecond := inDay % 1000 }

theorem fields_inj {time other : Int} (same : fields time = fields other) : time = other := by
  have year : yearFromDay (time / 86400000) = yearFromDay (other / 86400000) :=
    congrArg Fields.year same
  have month : _ + 1 = _ + 1 := congrArg Fields.month same
  have day : _ + 1 = _ + 1 := congrArg Fields.day same
  have hour : (time % 86400000).toNat / 3600000 = (other % 86400000).toNat / 3600000 :=
    congrArg Fields.hour same
  have minute : (time % 86400000).toNat / 60000 % 60 = (other % 86400000).toNat / 60000 % 60 :=
    congrArg Fields.minute same
  have second : (time % 86400000).toNat / 1000 % 60 = (other % 86400000).toNat / 1000 % 60 :=
    congrArg Fields.second same
  have milli : (time % 86400000).toNat % 1000 = (other % 86400000).toNat % 1000 :=
    congrArg Fields.millisecond same
  rw [year] at month day
  have inYear := splitMonths_inj (Prod.ext (Nat.succ.inj month) (Nat.succ.inj day))
  have begun := (yearFromDay_spec (time / 86400000)).1
  have otherBegun := (yearFromDay_spec (other / 86400000)).1
  rw [year] at begun
  have sameDate : time / 86400000 = other / 86400000 := by omega
  have sameInDay : (time % 86400000).toNat = (other % 86400000).toNat := by omega
  omega

/-! ## The text -/

def sign (year : Int) : Char := if year < 0 then '-' else '+'

def yearText (year : Int) : List Char :=
  if 0 ≤ year ∧ year ≤ 9999 then padded 4 year.toNat else sign year :: padded 6 year.natAbs

theorem isDigit_sign (year : Int) : (sign year).isDigit = false := by
  unfold sign
  split
  · rfl
  · rfl

theorem sign_inj {year other : Int} (same : sign year = sign other) : year < 0 <-> other < 0 := by
  unfold sign at same
  split at same
  · split at same
    · rename_i negative otherNegative
      exact ⟨fun _ => otherNegative, fun _ => negative⟩
    · exact absurd same (by decide)
  · split at same
    · exact absurd same (by decide)
    · rename_i positive otherPositive
      exact ⟨fun negative => absurd negative positive,
        fun negative => absurd negative otherPositive⟩

/-- A year of four digits does not begin with a sign. -/
theorem padded_append_ne (width number : Nat) (tail : List Char) {c : Char} (chars : List Char)
    (separator : c.isDigit = false) : padded width number ++ tail ≠ c :: chars := by
  intro same
  cases digits : padded width number with
  | nil => exact padded_ne_nil width number digits
  | cons head rest =>
      rw [digits] at same
      have isHead : head = c := (List.cons.inj same).1
      have digit : head.isDigit = true := isDigit_of_mem_padded (digits ▸ List.mem_cons_self)
      rw [isHead, separator] at digit
      cases digit

theorem yearText_append_inj {year other : Int} {rest others : List Char}
    (same : yearText year ++ '-' :: rest = yearText other ++ '-' :: others) :
    year = other ∧ rest = others := by
  unfold yearText at same
  by_cases short : 0 ≤ year ∧ year ≤ 9999
  · by_cases otherShort : 0 ≤ other ∧ other ≤ 9999
    · rw [if_pos short, if_pos otherShort] at same
      have parts := padded_append_inj rfl same
      exact ⟨by omega, parts.2⟩
    · rw [if_pos short, if_neg otherShort] at same
      exact absurd same (padded_append_ne _ _ _ _ (isDigit_sign other))
  · by_cases otherShort : 0 ≤ other ∧ other ≤ 9999
    · rw [if_neg short, if_pos otherShort] at same
      exact absurd same.symm (padded_append_ne _ _ _ _ (isDigit_sign year))
    · rw [if_neg short, if_neg otherShort] at same
      have heads := List.cons.inj same
      have parts := padded_append_inj rfl heads.2
      have negative := sign_inj heads.1
      exact ⟨by omega, parts.2⟩

def Fields.text (f : Fields) : List Char :=
  yearText f.year ++ '-' :: (padded 2 f.month ++ '-' :: (padded 2 f.day ++ 'T' ::
    (padded 2 f.hour ++ ':' :: (padded 2 f.minute ++ ':' :: (padded 2 f.second ++ '.' ::
      (padded 3 f.millisecond ++ ['Z']))))))

theorem Fields.text_inj {one two : Fields} (same : one.text = two.text) : one = two := by
  unfold text at same
  rcases yearText_append_inj same with ⟨year, same⟩
  rcases padded_append_inj rfl same with ⟨month, same⟩
  rcases padded_append_inj rfl same with ⟨day, same⟩
  rcases padded_append_inj rfl same with ⟨hour, same⟩
  rcases padded_append_inj rfl same with ⟨minute, same⟩
  rcases padded_append_inj rfl same with ⟨second, same⟩
  rcases padded_append_inj rfl same with ⟨millisecond, _⟩
  cases one
  cases two
  simp only [Fields.mk.injEq]
  exact ⟨year, month, day, hour, minute, second, millisecond⟩

/-- The text of a time; a time that is out of range has none. -/
def toISOString (time : Int) : Option String :=
  if -8640000000000000 ≤ time ∧ time ≤ 8640000000000000 then
    some (String.ofList (fields time).text)
  else none

/-- Different times have different texts. -/
theorem toISOString_inj {time other : Int} {text : String} (one : toISOString time = some text)
    (two : toISOString other = some text) : time = other := by
  unfold toISOString at one two
  split at one
  · split at two
    · have texts := (Option.some.inj one).trans (Option.some.inj two).symm
      have chars := congrArg String.toList texts
      rw [String.toList_ofList, String.toList_ofList] at chars
      exact fields_inj (Fields.text_inj chars)
    · cases two
  · cases one

/-- A leap day, the last millisecond before 1970, and a year of five digits. -/
example : toISOString 951782400000 = some "2000-02-29T00:00:00.000Z" ∧
    toISOString (-1) = some "1969-12-31T23:59:59.999Z" ∧
    toISOString 253402300800000 = some "+010000-01-01T00:00:00.000Z" := by decide

end IsoTime
