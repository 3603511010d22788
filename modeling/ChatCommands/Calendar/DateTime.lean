import ChatCommands.Calendar.Date
import ChatCommands.Text.Digits

/-!
# Dates with a time of day and an offset

A `DateTime` is a date, a time of day down to the microsecond, and, if it is *aware*, an offset from
UTC of less than a day. The instant of a `DateTime` is a number of microseconds; it is an integer,
so an offset may push it over either end of the calendar. Instants are compared only between two
aware values or two values without an offset.

The written form is that of ISO 8601, with the fraction and the smaller parts of the offset present
only when they are not zero.
-/

namespace ChatCommands

/-! ## Times and offsets -/

/-- A time of day. -/
structure Clock where
  hour : Nat
  minute : Nat
  second : Nat
  microsecond : Nat
  in_range : hour < 24 ∧ minute < 60 ∧ second < 60 ∧ microsecond < 1000000
deriving DecidableEq

namespace Clock

def midnight : Clock := ⟨0, 0, 0, 0, by decide⟩

def ofNumbers? (hour minute second microsecond : Nat) : Option Clock :=
  if h : hour < 24 ∧ minute < 60 ∧ second < 60 ∧ microsecond < 1000000 then
    some ⟨hour, minute, second, microsecond, h⟩
  else none

def microseconds (t : Clock) : Nat :=
  ((t.hour * 60 + t.minute) * 60 + t.second) * 1000000 + t.microsecond

end Clock

def microsecondsPerDay : Nat := 86400000000

/-- An offset from UTC of less than a day, positive to the east. -/
structure Offset where
  microseconds : Int
  below_day : microseconds.natAbs < microsecondsPerDay
deriving DecidableEq

namespace Offset

def utc : Offset := ⟨0, by decide⟩

def ofMicroseconds? (microseconds : Int) : Option Offset :=
  if h : microseconds.natAbs < microsecondsPerDay then some ⟨microseconds, h⟩ else none

end Offset

/-- A date with a time of day, and an offset from UTC if it is aware. -/
structure DateTime where
  date : Date
  clock : Clock
  offset : Option Offset
deriving DecidableEq

namespace DateTime

/-! ## Instants -/

def isAware (t : DateTime) : Bool := t.offset.isSome

/-- The microseconds on the wall since the day before the calendar starts. -/
def wall (t : DateTime) : Nat :=
  t.date.ordinal * microsecondsPerDay + t.clock.microseconds

/-- What the clock on the wall shows, less the offset. -/
def instant (t : DateTime) : Int :=
  (t.wall : Int) - (t.offset.map Offset.microseconds).getD 0

/-- Whether `s` is before `t`; `none` if just one of them is aware. -/
def before? (s t : DateTime) : Option Bool :=
  if s.isAware = t.isAware then some (decide (s.instant < t.instant)) else none

/-! ## Written form -/

def colonPair (n : Nat) : List Char := ':' :: Chars.fixedDigits 10 2 n

/-- A point and six digits, or nothing for zero. -/
def writeFraction (microsecond : Nat) : List Char :=
  if microsecond = 0 then [] else '.' :: Chars.fixedDigits 10 6 microsecond

/-- The date as `YYYY-MM-DD`. -/
def writeDate (d : Date) : List Char :=
  Chars.fixedDigits 10 4 d.year ++ '-' :: Chars.fixedDigits 10 2 d.month ++
    '-' :: Chars.fixedDigits 10 2 d.day

/-- The time as `HH:MM:SS`, with a fraction if there is one. -/
def writeClock (t : Clock) : List Char :=
  Chars.fixedDigits 10 2 t.hour ++ colonPair t.minute ++ colonPair t.second ++
    writeFraction t.microsecond

/-- The offset as a sign and `HH:MM`, with seconds and a fraction if they are not zero. -/
def writeOffset (offset : Offset) : List Char :=
  let total := offset.microseconds.natAbs
  let seconds := total / 1000000
  let sign := if offset.microseconds < 0 then '-' else '+'
  let small :=
    if total % 60000000 = 0 then []
    else colonPair (seconds % 60) ++ writeFraction (total % 1000000)
  sign :: Chars.fixedDigits 10 2 (seconds / 3600) ++ colonPair (seconds / 60 % 60) ++ small

/-- The written form with the given character between date and time. -/
def write (separator : Char) (t : DateTime) : List Char :=
  writeDate t.date ++ separator :: writeClock t.clock ++
    match t.offset with
    | none => []
    | some offset => writeOffset offset

/-- The form of ISO 8601, with `T` between date and time. -/
def iso (t : DateTime) : String := String.ofList (write 'T' t)

/-- The form for people, with a space between date and time. -/
def display (t : DateTime) : String := String.ofList (write ' ' t)

end DateTime

end ChatCommands
