import ChatCommands.Yaml.Number
import ChatCommands.Yaml.Tag

/-!
# Tokens

The pieces that a text falls into. The structure that indentation gives to a block is made explicit:
a block starts and ends with a token of its own, and a key is announced by one.
-/

namespace ChatCommands

namespace Yaml

/-- A directive in front of a document. -/
inductive Directive where
  -- the version of the format, of which only the first number counts
  | version (major : Nat)
  | handle (name start : String)
  | other
deriving DecidableEq

/-- A piece of a text. -/
inductive Token where
  | directive (directive : Directive)
  | documentStart
  | documentEnd
  | blockSequence
  | blockMapping
  | blockEnd
  | flowSequence
  | flowMapping
  | flowSequenceEnd
  | flowMappingEnd
  | comma
  | dash
  | key
  | value
  | aliasOf (name : String)
  | anchor (name : String)
  | tag (tag : WrittenTag)
  -- a scalar, and whether it is written without quotes
  | scalar (text : String) (isPlain : Bool)
deriving DecidableEq

/-! ## Reading directives -/

/-- The number at the start of a text. It is converted like every integer, so its digits have a
limit. -/
def takeNumber (cs : List Char) : Except Fault (Nat × List Char) :=
  let digits := cs.takeWhile Chars.isDecimal
  if digits.isEmpty then .error .malformed
  else if Number.digitLimit < digits.length then .error (.scalar (.tooManyDigits digits.length))
  else do
    let n ← required (Chars.number? Chars.decimalDigit? 10 digits)
    return (n, cs.dropWhile Chars.isDecimal)

def takeName? (cs : List Char) : Option (String × List Char) :=
  let name := cs.takeWhile isNameChar
  if name.isEmpty then none else some (String.ofList name, cs.dropWhile isNameChar)

/-- The version behind the name of its directive. -/
def takeVersion (cs : List Char) : Except Fault (Directive × List Char) := do
  let (major, rest) ← takeNumber (skipSpaces cs)
  match rest with
  | '.' :: rest =>
    let (_, rest) ← takeNumber rest
    if atGap rest then return (.version major, rest) else .error .malformed
  | _ => .error .malformed

/-- The handle and what it stands for, behind the name of the directive. -/
def handleDirective? (cs : List Char) : Option (Directive × List Char) := do
  let (name, rest) ← handle? (skipSpaces cs)
  if rest.head? == some ' ' then
    let (start, rest) ← tagText? (skipSpaces rest)
    if atGap rest then return (.handle name start, rest) else none
  else none

/-- The directive behind its sign, and the text from the next line on. -/
def Directive.read (cs : List Char) : Except Fault (Directive × List Char) := do
  let (name, rest) ← required (takeName? cs)
  if atGap rest then
    let (directive, rest) ←
      if name = "YAML" then takeVersion rest
      else if name = "TAG" then required (handleDirective? rest)
      else .ok (.other, skipLine rest)
    return (directive, ← required (finishLine? rest))
  else .error .malformed

/-! ## Reading anchors -/

/-- Whether the text behind the name of an anchor ends it. -/
def endsAnchor (cs : List Char) : Bool :=
  atBlank cs || (cs.head?.map ("?:,]\x7d%@`".toList.contains ·)).getD false

/-- The name of an anchor or alias behind its sign. -/
def anchorName? (cs : List Char) : Option (String × List Char) := do
  let (name, rest) ← takeName? cs
  if endsAnchor rest then return (name, rest) else none

end Yaml

end ChatCommands
