import ChatCommands.Document

/-!
# Reading JSON

A strict reader that says where a text goes wrong and what was expected there. Beyond the standard
it knows the numbers `NaN`, `Infinity` and `-Infinity`; integers have no limit but a count of
digits, and a repeated member replaces the earlier one. Positions count characters.
-/

namespace ChatCommands

namespace Json

/-! ## Faults -/

/-- What is wrong at a place in the text. -/
inductive Cause where
  | value
  | name
  | colon
  | comma
  | extra
  | unterminated
  | control
  -- a backslash in front of a character that has no escape
  | escape
  -- an escape of a code point that is not four digits
  | codePoint
  | mark
deriving DecidableEq

def Cause.message : Cause → String
  | value => "Expecting value"
  | name => "Expecting property name enclosed in double quotes"
  | colon => "Expecting ':' delimiter"
  | comma => "Expecting ',' delimiter"
  | extra => "Extra data"
  | unterminated => "Unterminated string starting at"
  | control => "Invalid control character at"
  | escape => "Invalid \\escape"
  | codePoint => "Invalid \\uXXXX escape"
  | mark => "Unexpected UTF-8 BOM (decode using utf-8-sig)"

/-- Why a text could not be read. -/
inductive Error where
  -- the cause, and the characters in front of the place
  | fault (cause : Cause) (before : List Char)
  -- an integer of so many digits, more than are converted
  | tooManyDigits (count : Nat)

/-- The number of the line that the characters reach, the first being 1. -/
def lineOf (before : List Char) : Nat :=
  before.count '\n' + 1

/-- The number of the column behind the characters, the first being 1. -/
def columnOf (before : List Char) : Nat :=
  (before.reverse.takeWhile (· ≠ '\n')).length + 1

def Error.message : Error → String
  | fault cause before =>
    cause.message ++ ": line " ++ toString (lineOf before) ++ " column " ++
      toString (columnOf before) ++ " (char " ++ toString before.length ++ ")"
  | tooManyDigits count =>
    "Exceeds the limit (4300 digits) for integer string conversion: value has " ++
      toString count ++ " digits; use sys.set_int_max_str_digits() to increase the limit"

/-- Why reading stopped, while the rest of the text is at hand: the cause with the characters from
the place on, or a number of too many digits. -/
inductive Stop where
  | at (cause : Cause) (rest : List Char)
  | digits (count : Nat)

/-! ## Blanks and strings -/

def isSpace (c : Char) : Bool := c == ' ' || c == '\t' || c == '\n' || c == '\r'

/-- The text from the first character on that is no blank. -/
def skipSpace (cs : List Char) : List Char := cs.dropWhile isSpace

/-- The character that a single-letter escape stands for. -/
def escape? : Char → Option Char
  | '"' => some '"'
  | '\\' => some '\\'
  | '/' => some '/'
  | 'b' => some '\x08'
  | 'f' => some '\x0c'
  | 'n' => some '\n'
  | 'r' => some '\r'
  | 't' => some '\t'
  | _ => none

/-- The number that four hexadecimal digits write down. -/
def fourDigits? (cs : List Char) : Option Nat :=
  if cs.length < 4 then none else Chars.number? Chars.hexDigit? 16 (cs.take 4)

/-- The character of a code point. A `String` cannot hold half a surrogate pair, so U+FFFD stands
for it. -/
def characterOf (code : Nat) : Char :=
  if h : code.isValidChar then Char.ofNatAux code h else '\uFFFD'

/-- The code point behind `\u`: the characters it takes, and the code point, which two escapes of a
surrogate pair give together. `rest` starts behind the `u`. -/
def codePoint (start rest : List Char) : Except Stop (Nat × Nat) :=
  match fourDigits? rest with
  | none => .error (.at .codePoint start)
  | some high =>
    if rest.length ≤ 4 then .error (.at .codePoint start)
    else
      let behind := rest.drop 4
      if 0xD800 ≤ high && high < 0xDC00 && 6 < behind.length &&
          behind.take 2 == ['\\', 'u'] then
        match fourDigits? (behind.drop 2) with
        | none => .error (.at .codePoint (behind.drop 1))
        | some low =>
          if 0xDC00 ≤ low && low < 0xE000 then
            .ok (10, 0x10000 + (high - 0xD800) * 0x400 + (low - 0xDC00))
          else .ok (4, high)
      else .ok (4, high)

/-- The characters of a string up to its closing quote. `start` is the text from the opening quote
on, and the fuel bounds the number of characters. -/
def stringTail (start : List Char) : (fuel : Nat) → List Char → Except Stop (List Char × List Char)
  | 0, _ => .error (.at .unterminated start)
  | fuel + 1, cs =>
    match cs with
    | [] => .error (.at .unterminated start)
    | '"' :: rest => .ok ([], rest)
    | ['\\'] => .error (.at .unterminated start)
    | '\\' :: 'u' :: rest => do
      let (width, code) ← codePoint ('u' :: rest) rest
      let (later, rest) ← stringTail start fuel (rest.drop width)
      return (characterOf code :: later, rest)
    | '\\' :: c :: rest =>
      match escape? c with
      | none => .error (.at .escape cs)
      | some e => do
        let (later, rest) ← stringTail start fuel rest
        return (e :: later, rest)
    | c :: rest =>
      if c.toNat ≤ 0x1F then .error (.at .control cs)
      else do
        let (later, rest) ← stringTail start fuel rest
        return (c :: later, rest)

/-- The string behind an opening quote. `start` is the text from that quote on. -/
def string (start rest : List Char) : Except Stop (String × List Char) := do
  let (cs, rest) ← stringTail start (rest.length + 1) rest
  return (String.ofList cs, rest)

/-! ## Numbers -/

/-- The digits at the start of a text and the rest. -/
def takeDigits (cs : List Char) : List Char × List Char :=
  (cs.takeWhile Chars.isDecimal, cs.dropWhile Chars.isDecimal)

/-- The number that decimal digits write down. -/
def decimal (digits : List Char) : Nat :=
  (Chars.number? Chars.decimalDigit? 10 digits).getD 0

/-- The fraction at the start of a text, without its point, if a digit follows the point. -/
def fractionPart (cs : List Char) : List Char × List Char :=
  match cs with
  | '.' :: rest =>
    let (digits, behind) := takeDigits rest
    if digits.isEmpty then ([], cs) else (digits, behind)
  | _ => ([], cs)

/-- The exponent at the start of a text, if a digit follows. -/
def exponentPart (cs : List Char) : Option Int × List Char :=
  match cs with
  | e :: rest =>
    if e == 'e' || e == 'E' then
      let negative := rest.head? == some '-'
      let signed := negative || rest.head? == some '+'
      let (digits, behind) := takeDigits (if signed then rest.tail else rest)
      if digits.isEmpty then (none, cs)
      else (some (if negative then -(decimal digits : Int) else decimal digits), behind)
    else (none, cs)
  | [] => (none, cs)

def digitLimit : Nat := 4300

def number (start : List Char) : Except Stop (Document × List Char) :=
  let negative := start.head? == some '-'
  let cs := if negative then start.tail else start
  let integer : List Char × List Char :=
    match cs with
    | '0' :: rest => (['0'], rest)
    | _ => takeDigits cs
  if integer.1.isEmpty then .error (.at .value start)
  else
    let (fraction, behind) := fractionPart integer.2
    let (exponent, rest) := exponentPart behind
    if fraction.isEmpty && exponent.isNone then
      if digitLimit < integer.1.length then .error (.digits integer.1.length)
      else
        let n : Int := decimal integer.1
        .ok (.int (if negative then -n else n), rest)
    else
      let value :=
        Decimal.toFloat (decimal (integer.1 ++ fraction)) (exponent.getD 0 - fraction.length)
      .ok (.float (if negative then -value else value), rest)

/-! ## Values -/

def words : List (String × Document) :=
  [("null", .null), ("true", .bool true), ("false", .bool false),
    ("NaN", .float (Float.ofBits 0x7FF8000000000000)),
    ("Infinity", .float (Float.ofBits 0x7FF0000000000000)),
    ("-Infinity", .float (Float.ofBits 0xFFF0000000000000))]

/-- The word at the start of a text, or else the number there. -/
def scalar (cs : List Char) : Except Stop (Document × List Char) :=
  match words.find? fun word => word.1.toList.isPrefixOf cs with
  | some (word, value) => .ok (value, cs.drop word.length)
  | none => number cs

def colon (cs : List Char) : Except Stop (List Char) :=
  match skipSpace cs with
  | ':' :: rest => .ok (skipSpace rest)
  | rest => .error (.at .colon rest)

mutual

/-- The value at the start of a text; the fuel bounds how deep it may nest and how long it may be.
-/
def value : (fuel : Nat) → List Char → Except Stop (Document × List Char)
  | 0, cs => .error (.at .value cs)
  | fuel + 1, cs =>
    match cs with
    | '"' :: rest => do
      let (s, rest) ← string cs rest
      return (.text s, rest)
    | '[' :: rest =>
      match skipSpace rest with
      | ']' :: rest => .ok (.list [], rest)
      | rest => do
        let (items, rest) ← items fuel rest
        return (.list items, rest)
    | '\x7b' :: rest =>
      match skipSpace rest with
      | '\x7d' :: rest => .ok (.map [], rest)
      | rest => do
        let (entries, rest) ← members fuel rest
        return (.map (Document.entriesOf entries), rest)
    | _ => scalar cs

/-- The items of an array up to its end; there is one at least. -/
def items : (fuel : Nat) → List Char → Except Stop (List Document × List Char)
  | 0, cs => .error (.at .value cs)
  | fuel + 1, cs => do
    let (item, rest) ← value fuel cs
    match skipSpace rest with
    | ']' :: rest => return ([item], rest)
    | ',' :: rest =>
      let (later, rest) ← items fuel (skipSpace rest)
      return (item :: later, rest)
    | rest => .error (.at .comma rest)

/-- The members of an object up to its end; there is one at least. -/
def members : (fuel : Nat) → List Char → Except Stop (List (Document × Document) × List Char)
  | 0, cs => .error (.at .name cs)
  | fuel + 1, cs =>
    match cs with
    | '"' :: rest => do
      let (key, rest) ← string cs rest
      let rest ← colon rest
      let (item, rest) ← value fuel rest
      match skipSpace rest with
      | '\x7d' :: rest => return ([(.text key, item)], rest)
      | ',' :: rest =>
        let (later, rest) ← members fuel (skipSpace rest)
        return ((.text key, item) :: later, rest)
      | rest => .error (.at .comma rest)
    | _ => .error (.at .name cs)

end

/-- The document that the characters write down, blanks around it aside. -/
def document (cs : List Char) : Except Stop Document := do
  let start := skipSpace cs
  let (item, rest) ← value (2 * start.length + 2) start
  match skipSpace rest with
  | [] => return item
  | rest => .error (.at .extra rest)

def decode (source : String) : Except Error Document :=
  let cs := source.toList
  if cs.head? == some '\uFEFF' then .error (.fault .mark [])
  else
    match document cs with
    | .ok item => .ok item
    | .error (.at cause rest) => .error (.fault cause (cs.take (cs.length - rest.length)))
    | .error (.digits count) => .error (.tooManyDigits count)

end Json

end ChatCommands
