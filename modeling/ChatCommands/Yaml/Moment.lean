import ChatCommands.Calendar.DateTime
import ChatCommands.Document
import ChatCommands.Yaml.Characters
import ChatCommands.Yaml.Fault

/-!
# Dates and moments in YAML

A date is written as `YYYY-MM-DD`; a moment has a time of day behind it, and may have a fraction and
an offset of hours and minutes. What is written like a moment may still be none, when one of its
numbers is out of range.
-/

namespace ChatCommands

namespace Yaml

/-! ## Written moments -/

/-- An offset as written: nothing but the sign for UTC, or hours and minutes. -/
inductive WrittenOffset where
  | utc
  | shift (isNegative : Bool) (hours minutes : Nat)
deriving DecidableEq

/-- A time of day as written. -/
structure WrittenTime where
  hour : Nat
  minute : Nat
  second : Nat
  fraction : List Char
  offset : Option WrittenOffset
deriving DecidableEq

/-- A date or a moment as written. -/
structure WrittenMoment where
  year : Nat
  month : Nat
  day : Nat
  isFull : Bool
  time : Option WrittenTime
deriving DecidableEq

/-! ## Reading -/

/-- A number of exactly so many digits at the start of a text. -/
def takeDigits? (count : Nat) (cs : List Char) : Option (Nat × List Char) :=
  let digits := cs.take count
  if digits.length < count then none
  else (Chars.number? Chars.decimalDigit? 10 digits).map fun n => (n, cs.drop count)

/-- A number of two digits or one at the start of a text, and whether it has two. -/
def takePair? (cs : List Char) : Option (Nat × Bool × List Char) :=
  match takeDigits? 2 cs with
  | some (n, rest) => some (n, true, rest)
  | none => (takeDigits? 1 cs).map fun (n, rest) => (n, false, rest)

def dropChar? (c : Char) (cs : List Char) : Option (List Char) :=
  match cs with
  | head :: rest => if head == c then some rest else none
  | [] => none

def WrittenOffset.read? (cs : List Char) : Option WrittenOffset :=
  match cs with
  | ['Z'] => some .utc
  | sign :: rest =>
    if sign == '+' || sign == '-' then do
      let (hours, _, rest) ← takePair? rest
      match rest with
      | [] => return .shift (sign == '-') hours 0
      | _ =>
        let (minutes, rest) ← takeDigits? 2 (← dropChar? ':' rest)
        if rest.isEmpty then return .shift (sign == '-') hours minutes else none
    else none
  | [] => none

def WrittenTime.read? (cs : List Char) : Option WrittenTime := do
  let (hour, _, rest) ← takePair? cs
  let (minute, rest) ← takeDigits? 2 (← dropChar? ':' rest)
  let (second, rest) ← takeDigits? 2 (← dropChar? ':' rest)
  let (fraction, rest) : List Char × List Char :=
    match rest with
    | '.' :: digits => (digits.takeWhile Chars.isDecimal, digits.dropWhile Chars.isDecimal)
    | _ => ([], rest)
  if rest.isEmpty then return ⟨hour, minute, second, fraction, none⟩
  else
    let offset ← WrittenOffset.read? (rest.dropWhile fun c => c == ' ' || c == '\t')
    return ⟨hour, minute, second, fraction, some offset⟩

/-- The text behind what separates a time from its date: a letter, or blanks. -/
def dropDateEnd? (cs : List Char) : Option (List Char) :=
  match cs with
  | c :: rest =>
    if c == 'T' || c == 't' then some rest
    else if c == ' ' || c == '\t' then some (rest.dropWhile fun c => c == ' ' || c == '\t')
    else none
  | [] => none

def WrittenMoment.read? (cs : List Char) : Option WrittenMoment := do
  let (year, rest) ← takeDigits? 4 cs
  let (month, hasMonth, rest) ← takePair? (← dropChar? '-' rest)
  let (day, hasDay, rest) ← takePair? (← dropChar? '-' rest)
  if rest.isEmpty then return ⟨year, month, day, hasMonth && hasDay, none⟩
  else
    let time ← WrittenTime.read? (← dropDateEnd? rest)
    return ⟨year, month, day, hasMonth && hasDay, some time⟩

/-! ## Checking -/

def checkDate (year month day : Nat) : Except ScalarFault Unit :=
  if year = 0 then .error (.year year)
  else if month = 0 || 12 < month then .error .month
  else if day = 0 || daysInMonth year month < day then .error .day
  else .ok ()

/-- Whether the numbers make up a time of day. -/
def checkTime (t : WrittenTime) : Except ScalarFault Unit :=
  if 24 ≤ t.hour then .error .hour
  else if 60 ≤ t.minute then .error .minute
  else if 60 ≤ t.second then .error .second
  else .ok ()

def WrittenOffset.minutes : WrittenOffset → Int
  | utc => 0
  | shift isNegative hours minutes =>
    let total : Int := hours * 60 + minutes
    if isNegative then -total else total

def checkOffset (offset : Option WrittenOffset) : Except ScalarFault Unit :=
  match offset with
  | none => .ok ()
  | some offset =>
    if offset.minutes.natAbs < 1440 then .ok () else .error (.offset offset.minutes)

/-! ## The forms in which messages show them -/

/-- The microseconds of a fraction, of which six digits count. -/
def microseconds (fraction : List Char) : Nat :=
  let digits := fraction.take 6
  (Chars.number? Chars.decimalDigit? 10
    (digits ++ List.replicate (6 - digits.length) '0')).getD 0

/-- The form in which messages show an offset. -/
def showOffset (offset : Option WrittenOffset) : List String :=
  match offset with
  | none => []
  | some offset =>
    if offset.minutes = 0 then ["tzinfo=datetime.timezone.utc"]
    else ["tzinfo=datetime.timezone(" ++ showSpan offset.minutes ++ ")"]

/-- The form in which messages show a time of day: seconds and microseconds only if they are not
zero. -/
def showTime (t : WrittenTime) : List String :=
  let micro := microseconds t.fraction
  let small : List Nat :=
    if micro ≠ 0 then [t.second, micro] else if t.second ≠ 0 then [t.second] else []
  ([t.hour, t.minute] ++ small).map toString ++ showOffset t.offset

/-- The form in which messages show a date or a moment. -/
def showMoment (m : WrittenMoment) : String :=
  let date := [m.year, m.month, m.day].map toString
  match m.time with
  | none => "datetime.date(" ++ String.intercalate ", " date ++ ")"
  | some t => "datetime.datetime(" ++ String.intercalate ", " (date ++ showTime t) ++ ")"

/-- The date or moment that a scalar writes down, a line feed at its end aside. -/
def momentOfScalar (text : String) : Except ScalarFault Document := do
  match WrittenMoment.read? (dropLastBreak text.toList) with
  | none => throw .notAMoment
  | some m =>
    checkOffset (m.time.bind (·.offset))
    checkDate m.year m.month m.day
    if let some t := m.time then
      checkTime t
    return .moment (showMoment m)

end Yaml

end ChatCommands
