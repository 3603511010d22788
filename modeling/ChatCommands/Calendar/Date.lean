/-!
# Calendar dates

Dates of the proleptic Gregorian calendar in the years 1 to 9999. A `Date` carries the proof that it
exists. Dates are counted by their ordinal, the first day of year 1 being day 1, and are also
reached through the ISO weeks of a year: weeks start on Monday, and week 1 is the one that holds the
first Thursday.
-/

namespace ChatCommands

/-! ## The calendar -/

/-- Whether the year has a 29th of February. -/
def isLeapYear (year : Nat) : Bool :=
  year % 4 == 0 && (year % 100 != 0 || year % 400 == 0)

/-- The number of days of a month, `0` for a number that names no month. -/
def daysInMonth (year : Nat) : (month : Nat) → Nat
  | 1 | 3 | 5 | 7 | 8 | 10 | 12 => 31
  | 4 | 6 | 9 | 11 => 30
  | 2 => if isLeapYear year then 29 else 28
  | _ => 0

def daysInYear (year : Nat) : Nat :=
  if isLeapYear year then 366 else 365

/-- The number of days before the first day of a year, counted from the start of year 1. -/
def daysBeforeYear (year : Nat) : Nat :=
  let y := year - 1
  y * 365 + y / 4 - y / 100 + y / 400

/-- The number of days of the year before the first day of a month. -/
def daysBeforeMonth (year : Nat) : (month : Nat) → Nat
  | 0 => 0
  | month + 1 => daysBeforeMonth year month + daysInMonth year month

/-- The first and the last year of the calendar. -/
def firstYear : Nat := 1

@[inherit_doc firstYear]
def lastYear : Nat := 9999

/-- The numbers of a year, month and day that exists. -/
def IsDate (year month day : Nat) : Prop :=
  (firstYear ≤ year ∧ year ≤ lastYear) ∧ (1 ≤ month ∧ month ≤ 12) ∧
    (1 ≤ day ∧ day ≤ daysInMonth year month)

instance (year month day : Nat) : Decidable (IsDate year month day) :=
  inferInstanceAs (Decidable (_ ∧ _ ∧ _))

/-- A date of the years 1 to 9999. -/
structure Date where
  year : Nat
  month : Nat
  day : Nat
  exists_date : IsDate year month day
deriving DecidableEq

namespace Date

/-- The date with these numbers, if it exists. -/
def ofNumbers? (year month day : Nat) : Option Date :=
  if h : IsDate year month day then some ⟨year, month, day, h⟩ else none

/-- The number of the day, the first day of year 1 being day 1. -/
def ordinal (d : Date) : Nat :=
  daysBeforeYear d.year + daysBeforeMonth d.year d.month + d.day

/-! ## Days of a year -/

/-- The month and day of the `day`-th day of a year, the first day being day 1; months from `month`
on are searched, `months` of them. -/
def findMonth (year : Nat) : (months month day : Nat) → Nat × Nat
  | 0, month, day => (month, day)
  | months + 1, month, day =>
    if day ≤ daysInMonth year month then (month, day)
    else findMonth year months (month + 1) (day - daysInMonth year month)

/-- The `day`-th day of a year, the first day being day 1, if year and day exist. -/
def ofYearDay? (year day : Nat) : Option Date :=
  let (month, day) := findMonth year 11 1 day
  ofNumbers? year month day

/-! ## ISO weeks -/

/-- The weekday of the first day of a year, Monday being 0. -/
def firstWeekday (year : Nat) : Nat :=
  daysBeforeYear year % 7

/-- The number of ISO weeks of a year: 53 in the years that start on a Thursday and in the leap
years that start on a Wednesday. -/
def isoWeeks (year : Nat) : Nat :=
  if firstWeekday year = 3 ∨ (firstWeekday year = 2 ∧ isLeapYear year) then 53 else 52

/-- The day of the year, the first day being day 1, of the Monday of the year's ISO week 1. It is
negative or zero when that Monday lies in the year before. -/
def isoYearStart (year : Nat) : Int :=
  if firstWeekday year ≤ 3 then 1 - (firstWeekday year : Int) else 8 - (firstWeekday year : Int)

/-- The date of a day of an ISO week, Monday being 1, if the year has that week and the date lies in
the calendar. -/
def ofIsoWeek? (year week weekday : Nat) : Option Date :=
  if (firstYear ≤ year ∧ year ≤ lastYear) ∧ (1 ≤ week ∧ week ≤ isoWeeks year) ∧
      (1 ≤ weekday ∧ weekday ≤ 7) then
    let day : Int := isoYearStart year + ((week - 1) * 7 + (weekday - 1) : Nat)
    if day < 1 then ofYearDay? (year - 1) (day + daysInYear (year - 1)).toNat
    else if daysInYear year < day then ofYearDay? (year + 1) (day - daysInYear year).toNat
    else ofYearDay? year day.toNat
  else none

end Date

end ChatCommands
