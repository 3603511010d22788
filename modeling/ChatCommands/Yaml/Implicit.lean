import ChatCommands.Yaml.Moment
import ChatCommands.Yaml.Tag

/-!
# The kinds of plain scalars

A scalar without quotes and without a tag has the kind that its text looks like: a few words stand
for nothing and for truth values, digits for numbers, and some forms for dates. Everything else is
text.
-/

namespace ChatCommands

namespace Yaml

def nullWords : List String := ["~", "null", "Null", "NULL"]

/-- The words for truth values, in lower case, and what they stand for. -/
def truthWords : List (String × Bool) :=
  [("yes", true), ("no", false), ("true", true), ("false", false), ("on", true), ("off", false)]

/-- The forms of a word in lower case that stand for the same: with a capital, and in capitals. -/
def forms (word : String) : List String :=
  let capitals := word.toList.map Char.toUpper
  [word, String.ofList (capitals.take 1 ++ word.toList.drop 1), String.ofList capitals]

/-! ## Numbers -/

def isDigitOrGap (c : Char) : Bool := Chars.isDecimal c || c == '_'

/-- Whether a text consists of digits and underscores, and starts with a digit. -/
def isNumeral (cs : List Char) : Bool :=
  (cs.head?.map Chars.isDecimal).getD false && cs.all isDigitOrGap

/-- Whether a text is a part that counts below sixty. -/
def isSixtieth (cs : List Char) : Bool :=
  match cs with
  | [c] => Chars.isDecimal c
  | [tens, units] => '0' ≤ tens && tens ≤ '5' && Chars.isDecimal units
  | _ => false

def dropSign (cs : List Char) : List Char :=
  match cs with
  | '+' :: rest => rest
  | '-' :: rest => rest
  | _ => cs

/-- Whether a text without a sign looks like an integer. -/
def looksInteger (cs : List Char) : Bool :=
  match cs with
  | '0' :: 'b' :: rest => !rest.isEmpty && rest.all fun c => c == '0' || c == '1' || c == '_'
  | '0' :: 'x' :: rest => !rest.isEmpty && rest.all fun c => (Chars.hexDigit? c).isSome || c == '_'
  | '0' :: rest => rest.all fun c => ('0' ≤ c && c ≤ '7') || c == '_'
  | _ =>
    match Chars.splitAt ':' cs with
    | [] => false
    | first :: parts => isNumeral first && parts.all isSixtieth

/-- Whether a text is nothing, or an exponent with its sign. -/
def isExponent (cs : List Char) : Bool :=
  match cs with
  | [] => true
  | letter :: sign :: digits =>
    (letter == 'e' || letter == 'E') && (sign == '+' || sign == '-') && !digits.isEmpty &&
      digits.all Chars.isDecimal
  | _ => false

/-- Whether a text is digits and underscores, with an exponent behind them if there is one. -/
def isFraction (cs : List Char) : Bool := isExponent (cs.dropWhile isDigitOrGap)

/-- Whether a text looks like a number with a fraction. Only one that starts with a digit has a
sign. -/
def looksFloat (cs : List Char) : Bool :=
  let unsigned := dropSign cs
  if (forms "inf").any fun word => ('.' :: word.toList) == unsigned then true
  else if [".nan", ".NaN", ".NAN"].any fun word => word.toList == cs then true
  else
    match Chars.cutAt '.' unsigned with
    | (_, none) => false
    | ([], some fraction) =>
      cs.length == unsigned.length && (fraction.head?.map Chars.isDecimal).getD false &&
        isFraction fraction
    | (whole, some fraction) =>
      match Chars.splitAt ':' whole with
      | [] => false
      | [_] => isNumeral whole && isFraction fraction
      | first :: parts =>
        isNumeral first && parts.all isSixtieth && fraction.all isDigitOrGap

/-! ## Moments -/

/-- Whether a text looks like a date or a moment; month and day of a date have two digits. -/
def looksMoment (cs : List Char) : Bool :=
  match WrittenMoment.read? cs with
  | some m => m.isFull || m.time.isSome
  | none => false

/-! ## The kind of a text -/

/-- The tag of a plain scalar. A line feed at its end does not change what it looks like. -/
def Tag.ofPlain (text : String) : Tag :=
  let cs := dropLastBreak text.toList
  let word := String.ofList cs
  if text = "" then .null
  else if truthWords.any fun entry => (forms entry.1).contains word then .bool
  else if looksFloat cs then .float
  else if looksInteger (dropSign cs) then .int
  else if word = "<<" then .merge
  else if nullWords.contains word then .null
  else if looksMoment cs then .timestamp
  else if word = "=" then .value
  else if ["!", "&", "*"].contains word then .other
  else .text

end Yaml

end ChatCommands
