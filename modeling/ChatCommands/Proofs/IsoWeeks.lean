import ChatCommands.Proofs.DayCount
import Mathlib.Tactic.SplitIfs

/-!
# Dates by day and by week

A date is also reached by the number of a day in its year, and by a day of an ISO week. An ISO week
belongs to the year that has its Thursday and is counted by its Thursdays (`InIsoWeek`), so its
other days may lie in the year before or behind. `ofYearDay?_eq_some_iff` and
`ofIsoWeek?_eq_some_iff` say that either way finds the date that the calendar has there, and that it
finds one whenever there is one.
-/

namespace ChatCommands

namespace Date

/-! ## Days of a year -/

/-- The search for a month does not lose a day. -/
theorem findMonth_add (year months month day : Nat) :
    daysBeforeMonth year (findMonth year months month day).1 +
        (findMonth year months month day).2 =
      daysBeforeMonth year month + day := by
  induction months generalizing month day with
  | zero => rfl
  | succ months ih =>
    rw [findMonth]
    split
    · rfl
    · rw [ih, daysBeforeMonth]
      omega

/-- `findMonth` finds the month that has the day. -/
theorem findMonth_eq {year month months later day : Nat} (hfrom : month ≤ later)
    (hto : later ≤ month + months) (hday : 1 ≤ day ∧ day ≤ daysInMonth year later) :
    findMonth year months month (daysBeforeMonth year later - daysBeforeMonth year month + day) =
      (later, day) := by
  induction months generalizing month with
  | zero =>
    obtain rfl : later = month := Nat.le_antisymm hto hfrom
    rw [Nat.sub_self, Nat.zero_add, findMonth]
  | succ months ih =>
    rw [findMonth]
    rcases Nat.eq_or_lt_of_le hfrom with rfl | hlt
    · rw [Nat.sub_self, Nat.zero_add, if_pos hday.2]
    · have hmono := daysBeforeMonth_mono year hlt
      rw [Nat.succ_eq_add_one, daysBeforeMonth] at hmono
      have hbehind : daysBeforeMonth year later - daysBeforeMonth year month + day -
          daysInMonth year month =
          daysBeforeMonth year later - daysBeforeMonth year (month + 1) + day := by
        rw [daysBeforeMonth]
        omega
      rw [if_neg (by omega), hbehind, ih hlt (by omega)]

/-- `ofYearDay?` finds exactly the date of the year with this `yearDay`. -/
theorem ofYearDay?_eq_some_iff {year day : Nat} {d : Date} :
    ofYearDay? year day = some d ↔ d.year = year ∧ d.yearDay = day := by
  have hone : daysBeforeMonth year 1 = 0 := rfl
  constructor
  · intro h
    have hfound : ofNumbers? year (findMonth year 11 1 day).1 (findMonth year 11 1 day).2 =
        some d := h
    obtain ⟨hyear, hmonth, hday⟩ := ofNumbers?_eq_some hfound
    refine ⟨hyear, ?_⟩
    rw [yearDay, hyear, hmonth, hday, findMonth_add, hone, Nat.zero_add]
  · rintro ⟨rfl, rfl⟩
    obtain ⟨-, hmonth, hday⟩ := d.exists_date
    have hfind : findMonth d.year 11 1 (daysBeforeMonth d.year d.month - 0 + d.day) =
        (d.month, d.day) := findMonth_eq hmonth.1 hmonth.2 hday
    rw [Nat.sub_zero] at hfind
    rw [ofYearDay?, yearDay, hfind]
    exact dif_pos d.exists_date

/-! ## ISO weeks -/

/-- The day of the week, Monday being 1. The first day of year 1 is a Monday. -/
def weekday (d : Date) : Nat := (d.ordinal - 1) % 7 + 1

/-- The ordinal of the Thursday of the week, which may lie behind the last day of the calendar. -/
def thursday (d : Date) : Nat := d.ordinal + 4 - d.weekday

/-- `d` is the day `weekday` of a week whose Thursday is the `week`-th one of `year`. -/
structure InIsoWeek (d : Date) (year week weekday : Nat) : Prop where
  weekday_eq : d.weekday = weekday
  after_start : daysBeforeYear year < d.thursday
  before_end : d.thursday ≤ daysBeforeYear (year + 1)
  week_eq : (d.thursday - daysBeforeYear year - 1) / 7 + 1 = week

theorem year_eq_of_ordinal {d : Date} {year : Nat} (hstart : daysBeforeYear year < d.ordinal)
    (hend : d.ordinal ≤ daysBeforeYear (year + 1)) : d.year = year := by
  have hafter := d.lt_ordinal
  refine Nat.le_antisymm ?_ ?_ <;> by_contra hlt
  · have hmono := daysBeforeYear_mono (Nat.lt_of_not_le hlt)
    rw [Nat.succ_eq_add_one] at hmono
    omega
  · have hbefore := d.ordinal_le (Nat.lt_of_not_le hlt)
    omega

theorem ofYearDay?_eq_some_iff_ordinal {year day : Nat} {d : Date} (hyear : 1 ≤ year)
    (hday : 1 ≤ day ∧ day ≤ daysInYear year) :
    ofYearDay? year day = some d ↔ d.ordinal = daysBeforeYear year + day := by
  have hsucc := daysBeforeYear_succ hyear
  have hordinal := d.ordinal_eq
  rw [ofYearDay?_eq_some_iff]
  constructor
  · rintro ⟨rfl, rfl⟩
    exact hordinal
  · intro h
    obtain rfl : d.year = year := year_eq_of_ordinal (by omega) (by omega)
    exact ⟨rfl, by omega⟩

theorem daysInYear_cases (year : Nat) :
    isLeapYear year = true ∧ daysInYear year = 366 ∨
      isLeapYear year = false ∧ daysInYear year = 365 := by
  cases h : isLeapYear year <;> simp [daysInYear, h]

/-- The first ISO week starts on a Monday at most three days from the first of January. -/
theorem isoYearStart_spec (year : Nat) :
    ∃ weeks : Int, daysBeforeYear year + isoYearStart year = 7 * weeks + 1 ∧
      -2 ≤ isoYearStart year ∧ isoYearStart year ≤ 4 := by
  refine ⟨(daysBeforeYear year + isoYearStart year - 1) / 7, ?_⟩
  rw [isoYearStart, firstWeekday]
  split <;> omega

/-- `isoWeeks year` counts the weeks whose Thursday lies in the year. -/
theorem le_isoWeeks_iff {year week : Nat} (h : 1 ≤ week) :
    week ≤ isoWeeks year ↔ isoYearStart year + (7 * (week - 1) + 3 : Nat) ≤ daysInYear year := by
  have hfirst : firstWeekday year < 7 := Nat.mod_lt _ (by decide)
  rw [isoWeeks, isoYearStart]
  generalize firstWeekday year = first at hfirst ⊢
  rcases daysInYear_cases year with ⟨hleap, hdays⟩ | ⟨hleap, hdays⟩
  · simp only [hleap, hdays, and_true]
    split_ifs <;> omega
  · simp only [hleap, hdays, Bool.false_eq_true, and_false, or_false]
    split_ifs <;> omega

/-- A day counted from the start of a year may lie in the week before it or behind it. -/
theorem ofDay?_eq_some_iff {year : Nat} {day : Int} {d : Date} (hyear : 1 ≤ year)
    (hfrom : -7 ≤ day) (hto : day ≤ daysInYear year + 7) :
    (if day < 1 then ofYearDay? (year - 1) (day + daysInYear (year - 1)).toNat
      else if daysInYear year < day then ofYearDay? (year + 1) (day - daysInYear year).toNat
      else ofYearDay? year day.toNat) = some d ↔
      (d.ordinal : Int) = daysBeforeYear year + day := by
  have hsucc := daysBeforeYear_succ hyear
  have hlong (year : Nat) : 365 ≤ daysInYear year := by
    rcases daysInYear_cases year with ⟨-, h⟩ | ⟨-, h⟩ <;> omega
  split
  · -- in the year before, which the calendar may not have
    rcases Nat.eq_or_lt_of_le hyear with rfl | hlater
    · have hyear0 : d.year ≠ 0 := Nat.ne_of_gt d.exists_date.1.1
      have hpos := d.lt_ordinal
      have hzero : daysBeforeYear 1 = 0 := rfl
      rw [ofYearDay?_eq_some_iff]
      refine ⟨fun h => absurd h.1 hyear0, fun h => ?_⟩
      omega
    · have hprevious : 1 ≤ year - 1 := by omega
      have hbefore := daysBeforeYear_succ hprevious
      have hlong' := hlong (year - 1)
      rw [Nat.sub_add_cancel hyear] at hbefore
      rw [ofYearDay?_eq_some_iff_ordinal hprevious (by omega)]
      omega
  · split
    · have hlong' := hlong (year + 1)
      rw [ofYearDay?_eq_some_iff_ordinal (by omega) (by omega)]
      omega
    · rw [ofYearDay?_eq_some_iff_ordinal hyear (by omega)]
      omega

theorem thursday_le (d : Date) : d.thursday ≤ daysBeforeYear (lastYear + 1) := by
  have hle := d.ordinal_le (Nat.lt_succ_of_le d.exists_date.1.2)
  have hend : daysBeforeYear (lastYear + 1) = 3652059 := rfl
  rw [Nat.succ_eq_add_one, hend] at hle
  rw [hend, thursday, weekday]
  omega

theorem InIsoWeek.year_bounds {d : Date} {year week weekday : Nat}
    (h : d.InIsoWeek year week weekday) : firstYear ≤ year ∧ year ≤ lastYear := by
  obtain ⟨-, hafter, hbefore, -⟩ := h
  constructor
  · by_contra hzero
    obtain rfl : year = 0 := Nat.lt_one_iff.1 (Nat.lt_of_not_le hzero)
    have hend : daysBeforeYear (0 + 1) = 0 := rfl
    omega
  · by_contra hlt
    have hmono := daysBeforeYear_mono (Nat.lt_of_not_le hlt)
    have hle := d.thursday_le
    rw [Nat.succ_eq_add_one] at hmono
    omega

/-- `ofIsoWeek?` finds exactly the date that is `InIsoWeek`. -/
theorem ofIsoWeek?_eq_some_iff {year week weekday : Nat} {d : Date} :
    ofIsoWeek? year week weekday = some d ↔ d.InIsoWeek year week weekday := by
  obtain ⟨weeks, hmonday, hfrom, hto⟩ := isoYearStart_spec year
  constructor
  · intro h
    rw [ofIsoWeek?] at h
    split at h
    case isFalse => cases h
    case isTrue hin =>
      obtain ⟨⟨hyear, -⟩, ⟨hweek, hweeks⟩, hweekday⟩ := hin
      rw [le_isoWeeks_iff hweek] at hweeks
      have hsucc := daysBeforeYear_succ hyear
      rw [ofDay?_eq_some_iff hyear (by omega) (by omega)] at h
      have hweekday_eq : d.weekday = weekday := by
        rw [Date.weekday]
        omega
      refine ⟨hweekday_eq, ?_, ?_, ?_⟩ <;> rw [thursday, hweekday_eq] <;> omega
  · intro h
    have hbounds := h.year_bounds
    obtain ⟨rfl, hafter, hbefore, rfl⟩ := h
    have hsucc := daysBeforeYear_succ hbounds.1
    have hpos := d.lt_ordinal
    have hthursday : d.thursday = d.ordinal + 4 - d.weekday := rfl
    have hweekday : d.weekday = (d.ordinal - 1) % 7 + 1 := rfl
    have hweek : (d.thursday - daysBeforeYear year - 1) / 7 + 1 ≤ isoWeeks year := by
      rw [le_isoWeeks_iff (by omega)]
      omega
    rw [ofIsoWeek?, if_pos ⟨hbounds, ⟨by omega, hweek⟩, by omega⟩,
      ofDay?_eq_some_iff hbounds.1 (by omega) (by omega)]
    omega

end Date

end ChatCommands
