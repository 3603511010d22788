import ChatCommands.Calendar.DateTime

/-!
# Reading ISO 8601

A reader for the many spellings of a moment in time: dates in basic and extended form, ISO week
dates, any one character between date and time, times with or without colons, a fraction behind any
part, and an offset down to the microsecond.

The reader works on the UTF-8 bytes of the text. A byte looked for behind the end is zero, and a
zero byte counts as the end; so a text that holds U+0000 may be read although something follows.
What is left over behind a time matters only when no offset follows it.
-/

namespace ChatCommands

namespace Iso8601

/-! ## Bytes -/

/-- The bytes of a text in UTF-8. -/
def utf8 (cs : List Char) : List UInt8 :=
  cs.flatMap String.utf8EncodeChar

def ascii (c : Char) : UInt8 := c.toUInt8

def isDigit (b : UInt8) : Bool := 48 ≤ b && b ≤ 57

/-- The number written by the first `width` bytes, all of them digits, and the bytes behind. -/
def number? (width : Nat) (bytes : List UInt8) : Option (Nat × List UInt8) :=
  let digits := bytes.take width
  if digits.length = width && digits.all isDigit then
    some (digits.foldl (fun n b => n * 10 + (b.toNat - 48)) 0, bytes.drop width)
  else none

def skip? (b : UInt8) : List UInt8 → Option (List UInt8)
  | [] => none
  | head :: rest => if head = b then some rest else none

/-! ## Dates -/

/-- The byte at an index, zero behind the end. -/
def byteAt (bytes : List UInt8) (i : Nat) : UInt8 := bytes.getD i 0

/-- The length of the date at the start of a text of at least seven bytes. The date may be given by
month and day or by week, with dashes or without; where a dash or a digit behind a week may belong
to either side, the count of what follows decides. -/
def dateLength? (bytes : List UInt8) : Option Nat :=
  let length := bytes.length
  let dash := ascii '-'
  let week := ascii 'W'
  if length = 7 then some 7
  else if byteAt bytes 4 = dash then
    if byteAt bytes 5 = week then
      if length < 8 then none
      else if 8 < length && byteAt bytes 8 == dash then
        if length = 9 then none
        else if 10 < length && isDigit (byteAt bytes 10) then some 8
        else some 10
      else some 8
    else some 10
  else if byteAt bytes 4 = week then
    let past := 7 + ((bytes.drop 7).takeWhile isDigit).length
    if past < 9 then some past
    else if past % 2 = 0 then some 7
    else some 8
  else some 8

/-- The day of a week behind the week's number, Monday when it is left out. -/
def weekday? (dashed : Bool) (bytes : List UInt8) : Option Nat :=
  match bytes with
  | [] => some 1
  | _ => do
    let bytes ← if dashed then skip? (ascii '-') bytes else some bytes
    let (weekday, rest) ← number? 1 bytes
    if rest.isEmpty then some weekday else none

/-- The date that the bytes write down, nothing left over. -/
def date? (bytes : List UInt8) : Option Date := do
  let (year, bytes) ← number? 4 bytes
  let dashed := bytes.head? == some (ascii '-')
  let bytes := if dashed then bytes.tail else bytes
  if bytes.head? == some (ascii 'W') then
    let (week, bytes) ← number? 2 bytes.tail
    let weekday ← weekday? dashed bytes
    Date.ofIsoWeek? year week weekday
  else
    let (month, bytes) ← number? 2 bytes
    let bytes ← if dashed then skip? (ascii '-') bytes else some bytes
    let (day, rest) ← number? 2 bytes
    if rest.isEmpty then Date.ofNumbers? year month day else none

/-! ## Times -/

/-- The parts of a time or an offset as they are written. -/
structure Reading where
  groups : List Nat
  fraction : Nat
  extra : Bool
deriving DecidableEq

/-- The fraction at the start of the bytes: up to six digits count, more are skipped. `next` is the
byte behind the bytes. -/
def fraction? (next : UInt8) (bytes : List UInt8) : Option Reading := do
  let width := min 6 bytes.length
  let (value, bytes) ← number? width bytes
  let rest := bytes.dropWhile isDigit
  return ⟨[], value * Nat.pow 10 (6 - width), rest.headD next ≠ 0⟩

/-- Up to `count` two-digit groups and a fraction. `separated` tells whether the groups have colons
between them, which the byte behind the first group decides. -/
def groups? (next : UInt8) : (count : Nat) → (separated : Option Bool) → List UInt8 → Option Reading
  | 0, _, bytes => fraction? next bytes
  | count + 1, separated, bytes => do
    let (value, rest) ← number? 2 bytes
    let c := rest.headD next
    let colons := separated.getD (c == ascii ':')
    if rest.length ≤ 1 then return ⟨[value], 0, c ≠ 0⟩
    else
      let later ←
        if colons && c == ascii ':' then groups? next count (some colons) rest.tail
        else if c == ascii '.' || c == ascii ',' then fraction? next rest.tail
        else if !colons then groups? next count (some colons) rest
        else none
      return { later with groups := value :: later.groups }

/-- The reading of a time or an offset: three groups at most. -/
def reading? (next : UInt8) (bytes : List UInt8) : Option Reading :=
  groups? next 3 none bytes

namespace Reading

/-- The hours, `0` when they are left out. -/
def hours (r : Reading) : Nat := r.groups.getD 0 0

/-- The minutes, `0` when they are left out. -/
def minutes (r : Reading) : Nat := r.groups.getD 1 0

/-- The seconds, `0` when they are left out. -/
def seconds (r : Reading) : Nat := r.groups.getD 2 0

def clock? (r : Reading) : Option Clock :=
  Clock.ofNumbers? r.hours r.minutes r.seconds r.fraction

/-- The reading as an offset. Minutes and seconds need not be below sixty, and a fraction alone is
no offset. -/
def offset? (r : Reading) (isNegative : Bool) : Option Offset :=
  let seconds := r.hours * 3600 + r.minutes * 60 + r.seconds
  if seconds = 0 then some Offset.utc
  else
    let total : Int := (seconds * 1000000 + r.fraction : Nat)
    Offset.ofMicroseconds? (if isNegative then -total else total)

end Reading

/-! ## Moments -/

def startsZone (b : UInt8) : Bool :=
  b == ascii '+' || b == ascii '-' || b == ascii 'Z'

/-- The offset that a zone gives: `Z`, or a sign with a reading. -/
def zone? (sign : UInt8) (bytes : List UInt8) : Option Offset :=
  if sign = ascii 'Z' then
    if bytes.headD 0 = 0 then some Offset.utc else none
  else do
    let r ← reading? 0 bytes
    if r.extra then none else r.offset? (sign == ascii '-')

/-- The time of day and the offset, if there is one, that the bytes write down. -/
def time? (bytes : List UInt8) : Option (Clock × Option Offset) :=
  let time := bytes.takeWhile (!startsZone ·)
  match bytes.dropWhile (!startsZone ·) with
  | [] => do
    let r ← reading? 0 time
    if r.extra then none else return (← r.clock?, none)
  | sign :: zone => do
    let r ← reading? sign time
    let offset ← zone? sign zone
    return (← r.clock?, some offset)

/-- The number of bytes of a character, told by its first byte. -/
def characterWidth (lead : UInt8) : Nat :=
  if lead < 0x80 then 1 else if lead < 0xE0 then 2 else if lead < 0xF0 then 3 else 4

/-- The moment that the bytes write down: a date, and behind one character of any kind a time. -/
def dateTimeOfBytes? (bytes : List UInt8) : Option DateTime :=
  if bytes.length < 7 then none
  else do
    let length ← dateLength? bytes
    let date ← date? (bytes.take length)
    match bytes.drop length with
    | [] => return ⟨date, Clock.midnight, none⟩
    | lead :: rest =>
      let (clock, offset) ← time? (rest.drop (characterWidth lead - 1))
      return ⟨date, clock, offset⟩

end Iso8601

/-- The moment that a text writes down in one of the forms of ISO 8601. -/
def DateTime.ofIso? (text : String) : Option DateTime :=
  Iso8601.dateTimeOfBytes? (Iso8601.utf8 text.toList)

end ChatCommands
