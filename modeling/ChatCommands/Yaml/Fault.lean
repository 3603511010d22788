import ChatCommands.Text.Quoted

/-!
# Faults of a YAML text

A text may fail to be a document, or it may be one and hold a scalar that its tag gives no value.
The two are kept apart because only the first is a fault of the format.
-/

namespace ChatCommands

namespace Yaml

/-- Why a scalar has no value under its tag. -/
inductive ScalarFault where
  | year (n : Nat)
  | month
  | day
  | hour
  | minute
  | second
  -- an offset of a day or more, given in minutes
  | offset (minutes : Int)
  | notAMoment
  | notAnInteger (base : Nat) (text : String)
  | notANumber (text : String)
  | notATruthValue (text : String)
  | noDigits
  -- an integer of so many digits, more than are converted
  | tooManyDigits (count : Nat)
  | momentOfMapping
  -- a number has so many parts that the first counts more than any `Float`
  | tooManyParts
  -- an escape gives a number that no character has
  | codePoint
  -- an escape gives a number that does not even fit in 31 bits
  | codeTooLarge
deriving DecidableEq

/-- Why a text yields no document. -/
inductive Fault where
  | malformed
  | scalar (fault : ScalarFault)
deriving DecidableEq

/-- What is read, if the text keeps the rules of the format there. -/
def required {α : Type} (read : Option α) : Except Fault α :=
  match read with
  | some value => .ok value
  | none => .error .malformed

/-- A span of minutes as messages show it: whole days, and the seconds of the day if any. -/
def showSpan (minutes : Int) : String :=
  let days := minutes / 1440
  let seconds := minutes % 1440 * 60
  let parts :=
    (if days = 0 then [] else ["days=" ++ toString days]) ++
      (if seconds = 0 then [] else ["seconds=" ++ toString seconds])
  "datetime.timedelta(" ++ (if parts.isEmpty then "0" else String.intercalate ", " parts) ++ ")"

def ScalarFault.message : ScalarFault → String
  | year n => "year " ++ toString n ++ " is out of range"
  | month => "month must be in 1..12"
  | day => "day is out of range for month"
  | hour => "hour must be in 0..23"
  | minute => "minute must be in 0..59"
  | second => "second must be in 0..59"
  | offset minutes =>
    "offset must be a timedelta strictly between -timedelta(hours=24) and timedelta(hours=24), not "
      ++ showSpan minutes ++ "."
  | notAMoment => "'NoneType' object has no attribute 'groupdict'"
  | notAnInteger base text =>
    "invalid literal for int() with base " ++ toString base ++ ": " ++ Text.quoted text
  | notANumber text => "could not convert string to float: " ++ Text.quoted text
  | notATruthValue text => Text.quoted text
  | noDigits => "string index out of range"
  | momentOfMapping => "expected string or bytes-like object, got 'list'"
  | tooManyParts => "int too large to convert to float"
  | codePoint => "chr() arg not in range(0x110000)"
  | codeTooLarge => "Python int too large to convert to C int"
  | tooManyDigits count =>
    "Exceeds the limit (4300 digits) for integer string conversion: value has " ++
      toString count ++ " digits; use sys.set_int_max_str_digits() to increase the limit"

end Yaml

end ChatCommands
