import ChatCommands.Document
import ChatCommands.Text.Blank
import ChatCommands.Text.Search
import ChatCommands.Yaml.Fault

/-!
# Numbers in YAML

The value of a scalar that is tagged as a number. Underscores are ignored, integers may be written
in bases 2, 8, 10 and 16, and parts between colons count sixty each. Digits of every script are
read.
-/

namespace ChatCommands

namespace Yaml

namespace Number

/-! ## Integers -/

def digit? (base : Nat) (c : Char) : Option Nat :=
  let value := (Chars.hexDigit? c).or (Chars.anyDigit? c)
  value.filter (· < base)

/-- The sign in front of a number, and the rest. -/
def takeSign (cs : List Char) : Bool × List Char :=
  match cs with
  | '-' :: rest => (true, rest)
  | '+' :: rest => (false, rest)
  | _ => (false, cs)

def signed (isNegative : Bool) (n : Int) : Int := if isNegative then -n else n

/-- The digits behind the letter that announces the base, if it does. -/
def dropBase (base : Nat) (cs : List Char) : List Char :=
  match cs with
  | '0' :: letter :: rest =>
    let c := letter.toLower
    if (base == 2 && c == 'b') || (base == 8 && c == 'o') || (base == 16 && c == 'x') then rest
    else cs
  | _ => cs

/-- The limit on the digits of an integer in base ten. -/
def digitLimit : Nat := 4300

/-- The integer that a text writes down in a base: blanks around it, a sign and the announcement of
the base aside, it consists of digits. -/
def integer (base : Nat) (cs : List Char) : Except ScalarFault Int :=
  let (isNegative, rest) := takeSign (Chars.trim cs)
  let digits := dropBase base rest
  match Chars.number? (digit? base) base digits with
  | none => .error (.notAnInteger base (String.ofList cs))
  | some n =>
    if digits.isEmpty then .error (.notAnInteger base (String.ofList cs))
    else if base == 10 && digitLimit < digits.length then .error (.tooManyDigits digits.length)
    else .ok (signed isNegative n)

/-- The value of parts that count sixty each, the last counting one. -/
def sexagesimal (parts : List Int) : Int :=
  parts.foldl (fun n part => n * 60 + part) 0

def ofScalar (text : String) : Except ScalarFault Int :=
  let cs := text.toList.filter (· ≠ '_')
  if cs.isEmpty then .error .noDigits
  else
    let (isNegative, cs) := takeSign cs
    let value : Except ScalarFault Int :=
      match cs with
      | [] => .error .noDigits
      | ['0'] => .ok 0
      | '0' :: 'b' :: rest => integer 2 rest
      | '0' :: 'x' :: rest => integer 16 rest
      | '0' :: _ => integer 8 cs
      | _ =>
        if cs.contains ':' then do
          return sexagesimal (← (Chars.splitAt ':' cs).mapM (integer 10))
        else integer 10 cs
    value.map (signed isNegative)

/-! ## Numbers with a fraction -/

def infinity : Float := Float.ofBits 0x7FF0000000000000

def notANumber : Float := Float.ofBits 0x7FF8000000000000

/-- The digits of any script at the start of a text, as numbers, and the text behind them. -/
def takeDigits : List Char → List Nat × List Char
  | [] => ([], [])
  | c :: rest =>
    match Chars.anyDigit? c with
    | some d =>
      let (later, behind) := takeDigits rest
      (d :: later, behind)
    | none => ([], c :: rest)

def ofDigits (digits : List Nat) : Nat := digits.foldl (fun n d => n * 10 + d) 0

/-- The exponent that makes up a text, zero for none. -/
def exponent? (cs : List Char) : Option Int :=
  match cs with
  | [] => some 0
  | letter :: rest =>
    if letter == 'e' || letter == 'E' then
      let (isNegative, rest) := takeSign rest
      match takeDigits rest with
      | ([], _) => none
      | (digits, []) => some (signed isNegative (ofDigits digits))
      | _ => none
    else none

/-- The number without a sign that a text writes down. -/
def magnitude? (cs : List Char) : Option Float :=
  let lower := String.ofList (cs.map Char.toLower)
  if lower = "inf" || lower = "infinity" then some infinity
  else if lower = "nan" then some notANumber
  else
    let (whole, rest) := takeDigits cs
    let (fraction, rest) : List Nat × List Char :=
      match rest with
      | '.' :: rest => takeDigits rest
      | _ => ([], rest)
    if whole.isEmpty && fraction.isEmpty then none
    else
      (exponent? rest).map fun exponent =>
        Decimal.toFloat (ofDigits (whole ++ fraction)) (exponent - fraction.length)

/-- The number that a text writes down, blanks around it aside. -/
def float (cs : List Char) : Except ScalarFault Float :=
  let (isNegative, rest) := takeSign (Chars.trim cs)
  match magnitude? rest with
  | none => .error (.notANumber (String.ofList cs))
  | some x => .ok (if isNegative then -x else x)

/-- The value of parts that count sixty each, given from the last one on; the last counts `base`,
which has to be within the range of `Float`. -/
def sexagesimalFloat (base : Nat) (sum : Float) : List Float → Except ScalarFault Float
  | [] => .ok sum
  | part :: parts =>
    if 2 ^ 1024 ≤ base then .error .tooManyParts
    else sexagesimalFloat (base * 60) (sum + part * Decimal.toFloat base 0) parts

def floatOfScalar (text : String) : Except ScalarFault Float :=
  let cs := (text.toList.filter (· ≠ '_')).map Char.toLower
  if cs.isEmpty then .error .noDigits
  else
    let (isNegative, cs) := takeSign cs
    let value : Except ScalarFault Float :=
      if cs == ".inf".toList then .ok infinity
      else if cs == ".nan".toList then .ok notANumber
      else if cs.contains ':' then do
        let parts ← (Chars.splitAt ':' cs).mapM float
        sexagesimalFloat 1 0 parts.reverse
      else float cs
    value.map fun x => if isNegative then -x else x

end Number

end Yaml

end ChatCommands
