import ChatCommands.Proofs.IsoRoundTrip
import ChatCommands.Proofs.IsoWeeks
import ChatCommands.Proofs.ScheduleLanguage
import Mathlib.Data.List.Basic

/-!
# What a parameter for moments stores

A parameter for moments takes any text, over any model. `moment_stored_or_refused` tells the two
ways in which this can end: a moment of the calendar is written under the name of the parameter and
nothing else changes, or the text is refused under that name and nothing changes at all.

The date of the moment is the one that the text starts with (`SpellsDate`): year, month and day, or
a day of an ISO week, with dashes or without. So a date that was given by its week is stored with
the month and day that the calendar has there.
-/

namespace ChatCommands

/-! ## Spelled dates -/

namespace Iso8601

theorem digitByte_sub {b : UInt8} (h : isDigit b = true) :
    b.toNat - 48 < 10 ∧ digitByte (b.toNat - 48) = b := by
  simp only [isDigit, Bool.and_eq_true, decide_eq_true_eq, UInt8.le_iff_toNat_le] at h
  obtain ⟨hfrom, hto⟩ : 48 ≤ b.toNat ∧ b.toNat ≤ 57 := h
  refine ⟨by omega, ?_⟩
  rw [digitByte, Nat.add_sub_cancel' hfrom, UInt8.ofNat_toNat]

theorem digitBytes_foldl {digits : List UInt8} (h : ∀ b ∈ digits, isDigit b = true) :
    digitBytes digits.length (digits.foldl (fun n b => n * 10 + (b.toNat - 48)) 0) = digits := by
  induction digits using List.reverseRecOn with
  | nil => rfl
  | append_singleton front last ih =>
    have hfront := ih fun b hb => h b (List.mem_append_left _ hb)
    obtain ⟨hlast, hbyte⟩ := digitByte_sub (h last (by simp))
    rw [List.foldl_append, List.length_append, List.foldl_cons, List.foldl_nil,
      List.length_singleton, digitBytes_succ]
    generalize front.foldl (fun n b => n * 10 + (b.toNat - 48)) 0 = n at hfront
    have hdiv : (n * 10 + (last.toNat - 48)) / 10 = n := by omega
    have hmod : (n * 10 + (last.toNat - 48)) % 10 = last.toNat - 48 := by omega
    rw [hdiv, hmod, hfront, hbyte]

/-- `number?` reads the digits at the start of the bytes. -/
theorem number?_eq_some {width n : Nat} {bytes rest : List UInt8}
    (h : number? width bytes = some (n, rest)) : bytes = digitBytes width n ++ rest := by
  rw [number?] at h
  split at h
  case isFalse => cases h
  case isTrue hdigits =>
    cases h
    obtain ⟨hlength, hall⟩ := Bool.and_eq_true_iff.1 hdigits
    have hbytes := digitBytes_foldl fun b hb => List.all_eq_true.1 hall b hb
    rw [of_decide_eq_true hlength] at hbytes
    rw [hbytes, List.take_append_drop]

def dash (dashed : Bool) : List UInt8 := if dashed then [ascii '-'] else []

/-- The ways to spell a date: by month and day, or by an ISO week, in which Monday needs no number.
-/
inductive SpellsDate (d : Date) : List UInt8 → Prop
  | day (dashed : Bool) :
    SpellsDate d (digitBytes 4 d.year ++ dash dashed ++ digitBytes 2 d.month ++ dash dashed ++
      digitBytes 2 d.day)
  | monday (dashed : Bool) {year week : Nat} (h : d.InIsoWeek year week 1) :
    SpellsDate d (digitBytes 4 year ++ dash dashed ++ ascii 'W' :: digitBytes 2 week)
  | weekday (dashed : Bool) {year week weekday : Nat} (h : d.InIsoWeek year week weekday) :
    SpellsDate d (digitBytes 4 year ++ dash dashed ++ ascii 'W' :: digitBytes 2 week ++
      dash dashed ++ digitBytes 1 weekday)

theorem skip?_eq_some {b : UInt8} {bytes rest : List UInt8} (h : skip? b bytes = some rest) :
    bytes = b :: rest := by
  cases bytes with
  | nil => cases h
  | cons head tail =>
    rw [skip?] at h
    split at h
    case isTrue hb =>
      cases h
      rw [hb]
    case isFalse => cases h

/-- The bytes behind the dash between two parts. -/
def skipDash? (dashed : Bool) (bytes : List UInt8) : Option (List UInt8) :=
  if dashed then skip? (ascii '-') bytes else some bytes

theorem skipDash?_eq_some {dashed : Bool} {bytes rest : List UInt8}
    (h : skipDash? dashed bytes = some rest) : bytes = dash dashed ++ rest := by
  cases hdashed : dashed with
  | true =>
    rw [skipDash?, if_pos hdashed] at h
    exact skip?_eq_some h
  | false =>
    rw [skipDash?, if_neg (by simp [hdashed])] at h
    cases h
    rfl

/-- The date of `year` whose month and day stand at the start of the bytes. -/
def dayOfMonth? (year : Nat) (dashed : Bool) (bytes : List UInt8) : Option Date :=
  (number? 2 bytes).bind fun (month, bytes) => (skipDash? dashed bytes).bind fun bytes =>
    (number? 2 bytes).bind fun (day, rest) =>
      if rest.isEmpty then Date.ofNumbers? year month day else none

/-- The date of `year` whose week and weekday stand at the start of the bytes. -/
def dayOfWeek? (year : Nat) (dashed : Bool) (bytes : List UInt8) : Option Date :=
  (number? 2 bytes).bind fun (week, bytes) =>
    (weekday? dashed bytes).bind (Date.ofIsoWeek? year week)

/-- The date of `year` that the bytes behind its number give. -/
def dayOfYear? (year : Nat) (bytes : List UInt8) : Option Date :=
  let dashed := bytes.head? == some (ascii '-')
  let front := if dashed then bytes.tail else bytes
  if front.head? == some (ascii 'W') then dayOfWeek? year dashed front.tail
  else dayOfMonth? year dashed front

/-- `date?` cut into its parts. -/
theorem date?_eq (bytes : List UInt8) :
    date? bytes = (number? 4 bytes).bind fun found => dayOfYear? found.1 found.2 := by
  rw [date?]
  refine congrArg _ (funext fun found => ?_)
  dsimp only [dayOfYear?]
  generalize (found.2.head? == some (ascii '-')) = dashed
  cases dashed <;> rfl

theorem weekday?_cons (dashed : Bool) (b : UInt8) (bytes : List UInt8) :
    weekday? dashed (b :: bytes) = (skipDash? dashed (b :: bytes)).bind fun bytes =>
      (number? 1 bytes).bind fun (weekday, rest) =>
        if rest.isEmpty then some weekday else none := by
  cases dashed <;> rfl

theorem weekday?_eq_some {dashed : Bool} {bytes : List UInt8} {weekday : Nat}
    (h : weekday? dashed bytes = some weekday) :
    (bytes = [] ∧ weekday = 1) ∨ bytes = dash dashed ++ digitBytes 1 weekday := by
  cases bytes with
  | nil => exact .inl ⟨rfl, (Option.some.inj h).symm⟩
  | cons b bytes =>
    rw [weekday?_cons] at h
    obtain ⟨behind, hdash, hbehind⟩ := Option.bind_eq_some_iff.1 h
    obtain ⟨⟨n, rest⟩, hnumber, hend⟩ := Option.bind_eq_some_iff.1 hbehind
    obtain ⟨hrest, rfl⟩ : rest = [] ∧ n = weekday := by simpa using hend
    refine .inr ?_
    rw [skipDash?_eq_some hdash, number?_eq_some hnumber, hrest, List.append_nil]

theorem eq_dash_append {bytes : List UInt8} {dashed : Bool}
    (h : (bytes.head? == some (ascii '-')) = dashed) :
    bytes = dash dashed ++ if dashed then bytes.tail else bytes := by
  cases hdashed : dashed with
  | false => rfl
  | true =>
    rw [hdashed] at h
    exact List.eq_cons_of_mem_head? (by simpa using h)

theorem eq_week_cons {bytes : List UInt8} (h : (bytes.head? == some (ascii 'W')) = true) :
    bytes = ascii 'W' :: bytes.tail :=
  List.eq_cons_of_mem_head? (by simpa using h)

theorem spellsDate_of_dayOfWeek? {year : Nat} {dashed : Bool} {bytes : List UInt8} {d : Date}
    (h : dayOfWeek? year dashed bytes = some d) :
    SpellsDate d (digitBytes 4 year ++ dash dashed ++ ascii 'W' :: bytes) := by
  obtain ⟨⟨week, behind⟩, hweek, hdays⟩ := Option.bind_eq_some_iff.1 h
  obtain ⟨weekday, hweekday, hday⟩ := Option.bind_eq_some_iff.1 hdays
  have hin := Date.ofIsoWeek?_eq_some_iff.1 hday
  rw [number?_eq_some hweek]
  rcases weekday?_eq_some hweekday with ⟨rfl, rfl⟩ | rfl
  · simpa using SpellsDate.monday dashed hin
  · simpa using SpellsDate.weekday dashed hin

theorem spellsDate_of_dayOfMonth? {year : Nat} {dashed : Bool} {bytes : List UInt8} {d : Date}
    (h : dayOfMonth? year dashed bytes = some d) :
    SpellsDate d (digitBytes 4 year ++ dash dashed ++ bytes) := by
  obtain ⟨⟨month, behind⟩, hmonth, hdays⟩ := Option.bind_eq_some_iff.1 h
  obtain ⟨last, hskip, hday⟩ := Option.bind_eq_some_iff.1 hdays
  obtain ⟨⟨day, rest⟩, hday, hend⟩ := Option.bind_eq_some_iff.1 hday
  obtain ⟨hrest, hdate⟩ : rest = [] ∧ Date.ofNumbers? year month day = some d := by simpa using hend
  obtain ⟨rfl, rfl, rfl⟩ := Date.ofNumbers?_eq_some hdate
  rw [number?_eq_some hmonth, skipDash?_eq_some hskip, number?_eq_some hday, hrest]
  simpa using SpellsDate.day (d := d) dashed

/-- If `date?` reads `d`, the bytes spell `d`. -/
theorem spellsDate_of_date? {bytes : List UInt8} {d : Date} (h : date? bytes = some d) :
    SpellsDate d bytes := by
  rw [date?_eq] at h
  obtain ⟨⟨year, behind⟩, hyear, hbehind⟩ := Option.bind_eq_some_iff.1 h
  rw [number?_eq_some hyear]
  dsimp only [dayOfYear?] at hbehind
  generalize hdashed : (behind.head? == some (ascii '-')) = dashed at hbehind
  rw [eq_dash_append hdashed, ← List.append_assoc]
  generalize (if dashed then behind.tail else behind) = front at hbehind ⊢
  split at hbehind
  case isTrue hweek =>
    rw [eq_week_cons hweek]
    exact spellsDate_of_dayOfWeek? hbehind
  case isFalse => exact spellsDate_of_dayOfMonth? hbehind

end Iso8601

/-! ## Moments of the calendar -/

namespace DateTime

open Iso8601

/-- The parts of a moment are those of a day of the calendar, of a time of that day, and of an
offset of less than a day. -/
structure InRange (t : DateTime) : Prop where
  year : 1 ≤ t.date.year ∧ t.date.year ≤ 9999
  month : 1 ≤ t.date.month ∧ t.date.month ≤ 12
  day : 1 ≤ t.date.day ∧ t.date.day ≤ daysInMonth t.date.year t.date.month
  hour : t.clock.hour < 24
  minute : t.clock.minute < 60
  second : t.clock.second < 60
  microsecond : t.clock.microsecond < 1000000
  -- the offset, if there is one, lies between a day to the west and a day to the east
  offset : ∀ offset ∈ t.offset,
    -(24 * 3600 * 1000000) < offset.microseconds ∧ offset.microseconds < 24 * 3600 * 1000000

/-- Every `DateTime` is in range. -/
theorem inRange (t : DateTime) : t.InRange where
  year := t.date.exists_date.1
  month := t.date.exists_date.2.1
  day := t.date.exists_date.2.2
  hour := t.clock.in_range.1
  minute := t.clock.in_range.2.1
  second := t.clock.in_range.2.2.1
  microsecond := t.clock.in_range.2.2.2
  offset offset _ := by
    have hbelow := offset.below_day
    rw [microsecondsPerDay] at hbelow
    omega

/-- A text that `ofIso?` reads starts with the date. -/
theorem spellsDate_of_ofIso? {text : String} {t : DateTime} (h : DateTime.ofIso? text = some t) :
    ∃ front behind, utf8 text.toList = front ++ behind ∧ SpellsDate t.date front := by
  rw [DateTime.ofIso?, dateTimeOfBytes?] at h
  split at h
  · cases h
  · obtain ⟨length, -, hdate⟩ := Option.bind_eq_some_iff.1 h
    obtain ⟨date, hread, hbehind⟩ := Option.bind_eq_some_iff.1 hdate
    have hstart : SpellsDate t.date ((utf8 text.toList).take length) := by
      split at hbehind
      · cases hbehind
        exact spellsDate_of_date? hread
      · obtain ⟨_, -, hmoment⟩ := Option.bind_eq_some_iff.1 hbehind
        cases hmoment
        exact spellsDate_of_date? hread
    exact ⟨_, _, (List.take_append_drop length _).symm, hstart⟩

end DateTime

/-! ## Storing -/

/-- `later` is `model` with `value` written under `name`. -/
structure Model.Written (model : Model) (name : String) (value : Value) (later : Model) : Prop where
  own : later.get? name = some value
  others : ∀ other, other ≠ name → later.get? other = model.get? other
  -- the names stand in their order; a new one stands last
  keys : later.keys = if name ∈ model.keys then model.keys else model.keys ++ [name]

theorem Model.written_insert (model : Model) (name : String) (value : Value) :
    Model.Written model name value (model.insert name value) where
  own := by rw [OrderedMap.get?_insert, if_pos rfl]
  others other h := by rw [OrderedMap.get?_insert, if_neg h.symm]
  keys := OrderedMap.keys_insert model name value

/-- The ways in which a text can be taken for the moment of a parameter. -/
inductive TakenAsMoment (name value : String) (model : Model) : Except Failure Unit × Model → Prop
  -- the text starts with the date of a moment, which is written under the name
  | stored {t : DateTime} {later : Model} {front behind : List UInt8} (hrange : t.InRange)
    (hread : DateTime.ofIso? value = some t)
    (htext : Iso8601.utf8 value.toList = front ++ behind)
    (hdate : Iso8601.SpellsDate t.date front)
    (hwritten : Model.Written model name (.moment t) later) :
    TakenAsMoment name value model (.ok (), later)
  -- the text is empty or no moment; it is refused under the name
  | refused {failure : Failure} {reason : String}
    (hunread : value = "" ∨ DateTime.ofIso? value = none) (hkind : failure.kind = .parse)
    (hmessage : failure.message = "the \"" ++ name ++ "\" parameter " ++ reason) :
    TakenAsMoment name value model (.error failure, model)

theorem message_emptyValue (name : String) :
    (Failure.command (.emptyValue name)).message =
      "the \"" ++ name ++ "\" parameter " ++ "cannot be empty" := by
  have hsplit : "\" parameter cannot be empty" = "\" parameter " ++ "cannot be empty" := by decide
  rw [String.append_assoc, ← hsplit]
  rfl

theorem message_notADate (name value : String) :
    (Failure.command (.notADate name value)).message =
      "the \"" ++ name ++ "\" parameter " ++
        ("expects an ISO8601 date, got " ++ Text.quoted value) := by
  have hsplit : "\" parameter expects an ISO8601 date, got " =
      "\" parameter " ++ "expects an ISO8601 date, got " := by decide
  calc (Failure.command (.notADate name value)).message
      = "the \"" ++ name ++ ("\" parameter " ++ "expects an ISO8601 date, got ") ++
          Text.quoted value := by rw [← hsplit]; rfl
    _ = _ := by simp only [String.append_assoc]

/-- A parameter for moments writes a moment under its name, or it refuses the text and keeps the
model. -/
theorem moment_stored_or_refused (name header detail value : String) (model : Model) :
    TakenAsMoment name value model
      (((dateTimeParameter name header detail).parse value).run.run model) := by
  rw [Schedule.parse_dateTimeParameter]
  by_cases hempty : value = ""
  · rw [if_pos hempty]
    exact .refused (.inl hempty) rfl (message_emptyValue name)
  · rw [if_neg hempty]
    cases hread : DateTime.ofIso? value with
    | none => exact .refused (.inr hread) rfl (message_notADate name value)
    | some t =>
      obtain ⟨front, behind, htext, hdate⟩ := DateTime.spellsDate_of_ofIso? hread
      exact .stored t.inRange hread htext hdate (Model.written_insert model name _)

/-- The last Sunday of an ISO year may be a day of the next January. -/
example : DateTime.ofIso? "2009-W53-7" = some ⟨⟨2010, 1, 3, by decide⟩, .midnight, none⟩ := by
  cbv

end ChatCommands
