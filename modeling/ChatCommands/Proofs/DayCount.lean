import ChatCommands.Calendar.Date
import Mathlib.Order.Monotone.Basic
import Mathlib.Tactic.IntervalCases

/-!
# Counting days

The ordinal of a date counts the days from the first day of year 1. This file proves that the count
is that of the calendar: a year has as many days as its months together
(`daysBeforeMonth_thirteen`), the years follow one another without gap (`daysBeforeYear_succ`), the
day after a date has the next ordinal (`ordinal_next?`), and no two dates share one (`ordinal_inj`).
-/

namespace ChatCommands

/-! ## Years -/

theorem isLeapYear_iff (year : Nat) :
    isLeapYear year = true ↔ year % 4 = 0 ∧ (year % 100 ≠ 0 ∨ year % 400 = 0) := by
  simp [isLeapYear]

/-- The days of a year lie between its start and the start of the next. -/
theorem daysBeforeYear_succ {year : Nat} (h : 1 ≤ year) :
    daysBeforeYear (year + 1) = daysBeforeYear year + daysInYear year := by
  have hthis : daysBeforeYear year =
      (year - 1) * 365 + (year - 1) / 4 - (year - 1) / 100 + (year - 1) / 400 := by
    rw [daysBeforeYear]
  have hnext : daysBeforeYear (year + 1) = year * 365 + year / 4 - year / 100 + year / 400 := by
    rw [daysBeforeYear, Nat.add_sub_cancel]
  rw [hthis, hnext, daysInYear]
  -- a quotient grows exactly where the year is a multiple of its divisor
  by_cases hleap : isLeapYear year = true
  · rw [if_pos hleap]
    rw [isLeapYear_iff] at hleap
    omega
  · rw [if_neg hleap]
    rw [isLeapYear_iff] at hleap
    omega

theorem daysBeforeYear_mono : Monotone daysBeforeYear := by
  refine monotone_nat_of_le_succ fun year => ?_
  rcases Nat.eq_zero_or_pos year with rfl | h
  · decide
  · rw [daysBeforeYear_succ h]
    exact Nat.le_add_right _ _

/-! ## Months -/

/-- The months of a year have all its days. -/
theorem daysBeforeMonth_thirteen (year : Nat) : daysBeforeMonth year 13 = daysInYear year := by
  simp only [daysBeforeMonth, daysInMonth, daysInYear]
  split <;> rfl

theorem daysBeforeMonth_mono (year : Nat) : Monotone (daysBeforeMonth year) :=
  monotone_nat_of_le_succ fun _ => Nat.le_add_right _ _

namespace Date

/-! ## The day of the year -/

/-- The number of the day in its year, the first day being day 1. -/
def yearDay (d : Date) : Nat := daysBeforeMonth d.year d.month + d.day

theorem ordinal_eq (d : Date) : d.ordinal = daysBeforeYear d.year + d.yearDay :=
  Nat.add_assoc _ _ _

theorem one_le_yearDay (d : Date) : 1 ≤ d.yearDay :=
  Nat.le_trans d.exists_date.2.2.1 (Nat.le_add_left _ _)

theorem yearDay_le (d : Date) {month : Nat} (h : d.month < month) :
    d.yearDay ≤ daysBeforeMonth d.year month :=
  calc d.yearDay ≤ daysBeforeMonth d.year d.month + daysInMonth d.year d.month :=
        Nat.add_le_add_left d.exists_date.2.2.2 _
    _ = daysBeforeMonth d.year (d.month + 1) := rfl
    _ ≤ daysBeforeMonth d.year month := daysBeforeMonth_mono d.year h

theorem yearDay_le_daysInYear (d : Date) : d.yearDay ≤ daysInYear d.year := by
  rw [← daysBeforeMonth_thirteen]
  exact d.yearDay_le (Nat.lt_succ_of_le d.exists_date.2.1.2)

theorem ordinal_le (d : Date) {year : Nat} (h : d.year < year) : d.ordinal ≤ daysBeforeYear year :=
  calc d.ordinal = daysBeforeYear d.year + d.yearDay := d.ordinal_eq
    _ ≤ daysBeforeYear d.year + daysInYear d.year := Nat.add_le_add_left d.yearDay_le_daysInYear _
    _ = daysBeforeYear (d.year + 1) := (daysBeforeYear_succ d.exists_date.1.1).symm
    _ ≤ daysBeforeYear year := daysBeforeYear_mono h

theorem lt_ordinal (d : Date) : daysBeforeYear d.year < d.ordinal := by
  have hpos := d.one_le_yearDay
  rw [ordinal_eq]
  omega

/-! ## Dates that share an ordinal -/

theorem year_le_of_ordinal_le {d e : Date} (h : d.ordinal ≤ e.ordinal) : d.year ≤ e.year := by
  by_contra hlt
  have hle := e.ordinal_le (Nat.lt_of_not_le hlt)
  have hpos := d.lt_ordinal
  omega

theorem month_le_of_yearDay_le {d e : Date} (hyear : d.year = e.year) (h : d.yearDay ≤ e.yearDay) :
    d.month ≤ e.month := by
  by_contra hlt
  have hle := e.yearDay_le (Nat.lt_of_not_le hlt)
  have hpos := d.exists_date.2.2.1
  rw [← hyear] at hle
  rw [yearDay] at h
  omega

theorem ext_numbers {d e : Date} (hyear : d.year = e.year) (hmonth : d.month = e.month)
    (hday : d.day = e.day) : d = e := by
  cases d
  cases e
  simp_all

/-- A date is found by its ordinal. -/
theorem ordinal_inj {d e : Date} : d.ordinal = e.ordinal ↔ d = e := by
  refine ⟨fun h => ?_, congrArg ordinal⟩
  have hyear : d.year = e.year :=
    Nat.le_antisymm (year_le_of_ordinal_le h.le) (year_le_of_ordinal_le h.ge)
  have hyearDay : d.yearDay = e.yearDay := by
    rw [ordinal_eq, ordinal_eq, hyear] at h
    omega
  have hmonth : d.month = e.month :=
    Nat.le_antisymm (month_le_of_yearDay_le hyear hyearDay.le)
      (month_le_of_yearDay_le hyear.symm hyearDay.ge)
  refine ext_numbers hyear hmonth ?_
  rw [yearDay, yearDay, hyear, hmonth] at hyearDay
  omega

/-! ## The next day -/

theorem ofNumbers?_eq_some {year month day : Nat} {d : Date}
    (h : ofNumbers? year month day = some d) : d.year = year ∧ d.month = month ∧ d.day = day := by
  rw [ofNumbers?] at h
  split at h
  · cases h
    exact ⟨rfl, rfl, rfl⟩
  · cases h

theorem ofNumbers?_eq_none {year month day : Nat} (h : ofNumbers? year month day = none) :
    ¬IsDate year month day := by
  rw [ofNumbers?] at h
  split at h
  · cases h
  · assumption

/-- The next day of the month, or else the first day of the next month, or else of the next year. -/
def next? (d : Date) : Option Date :=
  (ofNumbers? d.year d.month (d.day + 1)).or
    ((ofNumbers? d.year (d.month + 1) 1).or (ofNumbers? (d.year + 1) 1 1))

theorem day_eq_of_not_isDate (d : Date) (h : ¬IsDate d.year d.month (d.day + 1)) :
    d.day = daysInMonth d.year d.month := by
  obtain ⟨hyear, hmonth, hpos, hle⟩ := d.exists_date
  refine Nat.le_antisymm hle (Nat.not_lt.1 fun hlt => h ⟨hyear, hmonth, ?_, hlt⟩)
  omega

theorem one_le_daysInMonth {month : Nat} (year : Nat) (h : 1 ≤ month ∧ month ≤ 12) :
    1 ≤ daysInMonth year month := by
  obtain ⟨hpos, hle⟩ := h
  interval_cases month <;> simp only [daysInMonth] <;> try decide
  split <;> decide

theorem month_eq_of_not_isDate (d : Date) (h : ¬IsDate d.year (d.month + 1) 1) : d.month = 12 := by
  obtain ⟨hyear, ⟨hpos, hle⟩, -⟩ := d.exists_date
  by_contra hne
  have hmonth : 1 ≤ d.month + 1 ∧ d.month + 1 ≤ 12 := by omega
  exact h ⟨hyear, hmonth, Nat.le_refl 1, one_le_daysInMonth _ hmonth⟩

/-- The ordinal of the last day of a year is `daysBeforeYear` of the next one. -/
theorem ordinal_eq_daysBeforeYear (d : Date) (hday : ¬IsDate d.year d.month (d.day + 1))
    (hmonth : ¬IsDate d.year (d.month + 1) 1) : d.ordinal = daysBeforeYear (d.year + 1) := by
  have hyearDay : d.yearDay = daysBeforeMonth d.year 13 := by
    rw [yearDay, d.day_eq_of_not_isDate hday, d.month_eq_of_not_isDate hmonth]
    rfl
  rw [ordinal_eq, hyearDay, daysBeforeMonth_thirteen, daysBeforeYear_succ d.exists_date.1.1]

/-- `next?` adds one to the ordinal. -/
theorem ordinal_next? {d e : Date} (h : d.next? = some e) : e.ordinal = d.ordinal + 1 := by
  rw [next?, Option.or_eq_some_iff, Option.or_eq_some_iff] at h
  rcases h with h | ⟨hday, h | ⟨hmonth, h⟩⟩
  · -- the next day of the month
    obtain ⟨hyear, hmonth, hday⟩ := ofNumbers?_eq_some h
    rw [ordinal, ordinal, hyear, hmonth, hday]
    rfl
  · -- the first day of the next month
    obtain ⟨hyear, hmonth, hfirst⟩ := ofNumbers?_eq_some h
    have hlast := d.day_eq_of_not_isDate (ofNumbers?_eq_none hday)
    rw [ordinal, ordinal, hyear, hmonth, hfirst, hlast, daysBeforeMonth]
    omega
  · -- the first day of the next year
    obtain ⟨hyear, hfirst, hfirst'⟩ := ofNumbers?_eq_some h
    rw [d.ordinal_eq_daysBeforeYear (ofNumbers?_eq_none hday) (ofNumbers?_eq_none hmonth), ordinal,
      hyear, hfirst, hfirst']
    rfl

/-- If `next?` is `none`, no date has a greater ordinal. -/
theorem ordinal_le_of_next?_eq_none {d : Date} (h : d.next? = none) (e : Date) :
    e.ordinal ≤ d.ordinal := by
  rw [next?, Option.or_eq_none_iff, Option.or_eq_none_iff] at h
  obtain ⟨hday, hmonth, hyear⟩ := h
  rw [d.ordinal_eq_daysBeforeYear (ofNumbers?_eq_none hday) (ofNumbers?_eq_none hmonth)]
  refine e.ordinal_le (Nat.lt_succ_of_le (Nat.le_trans e.exists_date.1.2 ?_))
  -- a first of January exists in every year up to the last
  by_contra hlt
  have hin : firstYear ≤ d.year + 1 ∧ d.year + 1 ≤ lastYear :=
    ⟨Nat.le_add_left _ _, Nat.lt_of_not_le hlt⟩
  exact ofNumbers?_eq_none hyear ⟨hin, by decide, Nat.le_refl 1, one_le_daysInMonth _ (by decide)⟩

end Date

end ChatCommands
