import ChatCommands.Proofs.DayCount
import ChatCommands.Proofs.ScheduleLanguage

/-!
# The order of windows

The schedule command accepts a window whose start comes before its end. Its check compares two
integers, the instants. This file says what the integers stand for, in terms of the calendar alone:
a clock on the wall ticks once a microsecond (`tick?`), a tick adds one to its count
(`count_tick?`), and the count is that of no other reading (`count_inj`). So two moments are the
same instant exactly if the clocks on their walls are as many ticks apart as their offsets
(`sameInstant_iff`), wherever in or around the calendar UTC is at that instant.

`accepted_windows_strictly_ordered` puts together what follows for the check: it always answers, it
is a strict order on the instants, and a moment of one kind never comes before or after one of the
other.
-/

namespace ChatCommands

/-! ## The time of day -/

namespace Clock

theorem microseconds_lt (t : Clock) : t.microseconds < microsecondsPerDay := by
  obtain ⟨hhour, hminute, hsecond, hmicrosecond⟩ := t.in_range
  rw [microseconds, microsecondsPerDay]
  omega

theorem microseconds_inj {s t : Clock} : s.microseconds = t.microseconds ↔ s = t := by
  refine ⟨fun h => ?_, congrArg microseconds⟩
  obtain ⟨hour, minute, second, microsecond, _, _, _, _⟩ := s
  obtain ⟨hour', minute', second', microsecond', _, _, _, _⟩ := t
  simp only [microseconds] at h
  simp only [mk.injEq]
  omega

/-- The time of day a microsecond later; `none` at the end of the day. -/
def next? (t : Clock) : Option Clock :=
  (ofNumbers? t.hour t.minute t.second (t.microsecond + 1)).or
    ((ofNumbers? t.hour t.minute (t.second + 1) 0).or
      ((ofNumbers? t.hour (t.minute + 1) 0 0).or (ofNumbers? (t.hour + 1) 0 0 0)))

theorem microseconds_next? {s t : Clock} (h : s.next? = some t) :
    t.microseconds = s.microseconds + 1 := by
  obtain ⟨hhour, hminute, hsecond, hmicrosecond⟩ := s.in_range
  simp only [next?, ofNumbers?, Option.or_eq_some_iff, Option.dite_none_right_eq_some,
    dite_eq_right_iff, reduceCtorEq, imp_false, Option.some.injEq] at h
  rcases h with ⟨-, rfl⟩ | ⟨hfull, ⟨-, rfl⟩ | ⟨hfull', ⟨-, rfl⟩ | ⟨hfull'', -, rfl⟩⟩⟩
  · simp only [microseconds]
    omega
  · -- the second is over
    simp only [microseconds]
    omega
  · -- the minute is over
    simp only [microseconds]
    omega
  · -- the hour is over
    simp only [microseconds]
    omega

theorem next?_eq_none {t : Clock} (h : t.next? = none) :
    t.microseconds + 1 = microsecondsPerDay := by
  obtain ⟨hhour, hminute, hsecond, hmicrosecond⟩ := t.in_range
  simp only [next?, ofNumbers?, Option.or_eq_none_iff, dite_eq_right_iff, reduceCtorEq,
    imp_false] at h
  rw [microseconds, microsecondsPerDay]
  omega

end Clock

/-! ## A clock on the wall -/

namespace Wall

/-- The microseconds since the day before the first of the calendar, when a clock on the wall shows
`r`. -/
def count (r : Date × Clock) : Nat := r.1.ordinal * microsecondsPerDay + r.2.microseconds

/-- What the clock shows a microsecond later; `none` at the end of the last year. -/
def tick? (r : Date × Clock) : Option (Date × Clock) :=
  match r.2.next? with
  | some clock => some (r.1, clock)
  | none => r.1.next?.map fun date => (date, .midnight)

/-- What the clock shows `n` microseconds later. -/
def ticks? : (n : Nat) → Date × Clock → Option (Date × Clock)
  | 0, r => some r
  | n + 1, r => (tick? r).bind (ticks? n)

/-- The clock shows each reading once. -/
theorem count_inj {r s : Date × Clock} : count r = count s ↔ r = s := by
  refine ⟨fun h => ?_, congrArg count⟩
  have hr := r.2.microseconds_lt
  have hs := s.2.microseconds_lt
  rw [count, count] at h
  rw [microsecondsPerDay] at h hr hs
  have hdate : r.1 = s.1 := Date.ordinal_inj.1 (by omega)
  rw [hdate] at h
  exact Prod.ext hdate (Clock.microseconds_inj.1 (by omega))

/-- A tick adds one to the count. -/
theorem count_tick? {r s : Date × Clock} (h : tick? r = some s) : count s = count r + 1 := by
  rw [tick?] at h
  cases hclock : r.2.next? with
  | some clock =>
    rw [hclock] at h
    cases h
    rw [count, count, Clock.microseconds_next? hclock, Nat.add_assoc]
  | none =>
    -- the day is over
    have hlast := Clock.next?_eq_none hclock
    rw [hclock] at h
    obtain ⟨date, hdate, rfl⟩ := Option.map_eq_some_iff.1 h
    have hmidnight : Clock.midnight.microseconds = 0 := rfl
    rw [count, count, Date.ordinal_next? hdate, hmidnight, Nat.succ_mul]
    omega

theorem count_le_of_tick?_eq_none {r : Date × Clock} (h : tick? r = none) (s : Date × Clock) :
    count s ≤ count r := by
  rw [tick?] at h
  cases hclock : r.2.next? with
  | some clock =>
    rw [hclock] at h
    cases h
  | none =>
    rw [hclock] at h
    have hlast := Clock.next?_eq_none hclock
    have hdate := Date.ordinal_le_of_next?_eq_none (Option.map_eq_none_iff.1 h) s.1
    have hs := s.2.microseconds_lt
    rw [count, count]
    rw [microsecondsPerDay] at hlast hs ⊢
    omega

/-- `count` tells how many ticks `s` is behind `r`. -/
theorem ticks?_eq_some_iff {n : Nat} {r s : Date × Clock} :
    ticks? n r = some s ↔ count s = count r + n := by
  induction n generalizing r with
  | zero =>
    rw [ticks?, Option.some_inj, Nat.add_zero, count_inj]
    exact eq_comm
  | succ n ih =>
    rw [ticks?]
    cases htick : tick? r with
    | none =>
      have hle := count_le_of_tick?_eq_none htick s
      rw [Option.bind_none]
      refine ⟨nofun, fun h => ?_⟩
      omega
    | some next =>
      rw [Option.bind_some, ih, count_tick? htick, Nat.add_right_comm, Nat.add_assoc]

/-- `s` is as many ticks behind `r` as the number tells, or before it if that is negative. -/
inductive Apart (r s : Date × Clock) : Int → Prop
  -- the clock comes from the first reading to the second
  | behind {n : Nat} (h : ticks? n r = some s) : Apart r s n
  -- the clock comes from the second reading to the first
  | before {n : Nat} (h : ticks? n s = some r) : Apart r s (-n)

theorem apart_iff {r s : Date × Clock} {gap : Int} :
    Apart r s gap ↔ gap = (count s : Int) - count r := by
  constructor
  · rintro (h | h) <;> rw [ticks?_eq_some_iff] at h <;> omega
  · rintro rfl
    rcases Nat.le_total (count r) (count s) with h | h
    · have hticks : ticks? (count s - count r) r = some s := ticks?_eq_some_iff.2 (by omega)
      have hgap := Apart.behind hticks
      rwa [Nat.cast_sub h] at hgap
    · have hticks : ticks? (count r - count s) s = some r := ticks?_eq_some_iff.2 (by omega)
      have hgap := Apart.before hticks
      rwa [Nat.cast_sub h, neg_sub] at hgap

end Wall

/-! ## Instants -/

namespace DateTime

def shown (t : DateTime) : Date × Clock := (t.date, t.clock)

/-- How far the clock on the wall is ahead of UTC, in microseconds. -/
def ahead (t : DateTime) : Int := (t.offset.map Offset.microseconds).getD 0

/-- The two moments are one instant: the second clock shows as much more as it is further ahead. -/
def SameInstant (a b : DateTime) : Prop := Wall.Apart a.shown b.shown (b.ahead - a.ahead)

/-- The first moment is over before the second: the second clock shows more than it is further
ahead. -/
def Precedes (a b : DateTime) : Prop :=
  ∃ gap, Wall.Apart a.shown b.shown gap ∧ b.ahead - a.ahead < gap

theorem instant_eq (t : DateTime) : t.instant = (Wall.count t.shown : Int) - t.ahead := rfl

theorem sameInstant_iff {a b : DateTime} : a.SameInstant b ↔ a.instant = b.instant := by
  rw [SameInstant, Wall.apart_iff, instant_eq, instant_eq]
  omega

theorem precedes_iff {a b : DateTime} : a.Precedes b ↔ a.instant < b.instant := by
  simp only [Precedes, Wall.apart_iff, exists_eq_left, instant_eq]
  omega

end DateTime

/-! ## Windows -/

namespace Schedule

open DateTime

/-- The model that holds the two ends of a window. -/
def windowOf (start stop : DateTime) : Model :=
  (OrderedMap.empty.insert "from" (.moment start)).insert "to" (.moment stop)

/-- The check accepts the window. -/
def Accepts (start stop : DateTime) : Prop :=
  (command.validate.run.run (windowOf start stop)).1 = .ok true

theorem isValid_of_ends {model : Model} {start stop : DateTime}
    (hstart : model.get? "from" = some (.moment start))
    (hstop : model.get? "to" = some (.moment stop)) :
    isValid model = .ok (isWindow start stop) := by
  rw [isValid, hstart, hstop]
  rfl

theorem accepts_iff_isWindow {start stop : DateTime} :
    Accepts start stop ↔ isWindow start stop = true := by
  have hstart : (windowOf start stop).get? "from" = some (.moment start) := by
    simp [windowOf, OrderedMap.get?_insert]
  have hstop : (windowOf start stop).get? "to" = some (.moment stop) := by
    simp [windowOf, OrderedMap.get?_insert]
  rw [Accepts, run_validate, isValid_of_ends hstart hstop, Except.ok.injEq]

theorem accepts_iff_instant {start stop : DateTime} :
    Accepts start stop ↔ start.isAware = stop.isAware ∧ start.instant < stop.instant := by
  rw [accepts_iff_isWindow, isWindow_iff]

/-- Without an end `isValid` is false, and for two moments it is `isWindow`. -/
theorem isValid_eq_ok {model : Model}
    (h : ∀ key value, key = "from" ∨ key = "to" → model.get? key = some value →
      ∃ t, value = .moment t) :
    ∃ answer, isValid model = .ok answer := by
  cases hstart : model.get? "from" with
  | none => exact ⟨false, by rw [isValid, hstart]⟩
  | some start =>
    cases hstop : model.get? "to" with
    | none => exact ⟨false, by rw [isValid, hstart, hstop]⟩
    | some stop =>
      obtain ⟨start, rfl⟩ := h "from" start (.inl rfl) hstart
      obtain ⟨stop, rfl⟩ := h "to" stop (.inr rfl) hstop
      exact ⟨_, isValid_of_ends hstart hstop⟩

/-- The check of the schedule command orders moments by their instants. -/
structure OrdersWindows : Prop where
  -- the check never fails on a model whose ends, as far as it has them, are moments, and it leaves
  -- the model as it is
  answers : ∀ model : Model,
    (∀ key value, key = "from" ∨ key = "to" → model.get? key = some value →
      ∃ t, value = .moment t) →
    ∃ answer, command.validate.run.run model = (.ok answer, model)
  by_ends : ∀ (model : Model) (start stop : DateTime),
    model.get? "from" = some (.moment start) → model.get? "to" = some (.moment stop) →
    ∃ answer, command.validate.run.run model = (.ok answer, model) ∧
      (answer = true ↔ Accepts start stop)
  -- a window is accepted exactly if both or neither of its ends carry an offset and the first is
  -- over before the second
  accepts_iff : ∀ a b, Accepts a b ↔ a.isAware = b.isAware ∧ a.Precedes b
  asymm : ∀ a b, Accepts a b → ¬Accepts b a
  trans : ∀ a b c, Accepts a b → Accepts b c → Accepts a c
  -- of two moments of one kind exactly one of three holds: the first comes before the second, the
  -- second comes before the first, or they are the same instant
  trichotomy : ∀ a b, a.isAware = b.isAware →
    (Accepts a b ∧ ¬Accepts b a ∧ ¬a.SameInstant b) ∨
    (¬Accepts a b ∧ Accepts b a ∧ ¬a.SameInstant b) ∨
    (¬Accepts a b ∧ ¬Accepts b a ∧ a.SameInstant b)
  -- a moment with an offset and one without do not make up a window
  mixed : ∀ a b, a.isAware ≠ b.isAware → ¬Accepts a b ∧ ¬Accepts b a
  -- only the instant of an aware end counts, not its offset
  same_instant : ∀ a a' b, a.isAware = true → a'.isAware = true → a.SameInstant a' →
    (Accepts a b ↔ Accepts a' b) ∧ (Accepts b a ↔ Accepts b a')

/-- `Accepts` is a strict order on instants, total among moments with the same `isAware`. -/
theorem accepted_windows_strictly_ordered : OrdersWindows where
  answers model h := by
    obtain ⟨answer, hanswer⟩ := isValid_eq_ok h
    exact ⟨answer, by rw [run_validate, hanswer]⟩
  by_ends model start stop hstart hstop :=
    ⟨_, by rw [run_validate, isValid_of_ends hstart hstop], accepts_iff_isWindow.symm⟩
  accepts_iff a b := by rw [accepts_iff_instant, precedes_iff]
  asymm a b hab hba := by
    rw [accepts_iff_instant] at hab hba
    exact lt_asymm hab.2 hba.2
  trans a b c hab hbc := by
    rw [accepts_iff_instant] at hab hbc ⊢
    exact ⟨hab.1.trans hbc.1, lt_trans hab.2 hbc.2⟩
  trichotomy a b haware := by
    simp only [accepts_iff_instant, sameInstant_iff, haware, true_and]
    omega
  mixed a b haware := by
    simp only [accepts_iff_instant]
    exact ⟨fun h => haware h.1, fun h => haware h.1.symm⟩
  same_instant a a' b ha ha' hsame := by
    rw [sameInstant_iff] at hsame
    simp only [accepts_iff_instant, ha, ha', hsame, and_self]

/-- In UTC this window starts before the first day of the calendar. -/
example :
    let start : DateTime := ⟨⟨1, 1, 1, by decide⟩, .midnight, some ⟨50400000000, by decide⟩⟩
    let stop : DateTime := ⟨⟨1, 1, 1, by decide⟩, .midnight, some .utc⟩
    start.instant < microsecondsPerDay ∧ isWindow start stop = true := by
  decide

end Schedule

end ChatCommands
