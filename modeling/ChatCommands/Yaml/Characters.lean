import ChatCommands.Text.Digits

/-!
# Characters of YAML

The classes of characters that the format distinguishes, and the small scans that rest on them. A
scan takes the text from a place on and gives back what it read and the text behind it. The carriage
return does not occur: breaks are unified before a text is scanned.
-/

namespace ChatCommands

namespace Yaml

/-! ## Classes -/

def isAllowed (c : Char) : Bool :=
  let n := c.toNat
  n == 0x09 || n == 0x0A || n == 0x0D || (0x20 ≤ n && n ≤ 0x7E) || n == 0x85 ||
    (0xA0 ≤ n && n ≤ 0xD7FF) || (0xE000 ≤ n && n ≤ 0xFFFD) || 0x10000 ≤ n

/-- The byte order mark, which takes up no column. -/
def mark : Char := '\uFEFF'

def isBreak (c : Char) : Bool :=
  c == '\n' || c == '\u0085' || c == '\u2028' || c == '\u2029'

def isSpace (c : Char) : Bool := c == ' ' || c == '\t'

/-- Whether the text is at the end of a line. -/
def atBreak (cs : List Char) : Bool :=
  match cs with
  | [] => true
  | c :: _ => isBreak c

/-- Whether the text is at the end of a line or at a space. -/
def atGap (cs : List Char) : Bool :=
  match cs with
  | [] => true
  | c :: _ => isBreak c || c == ' '

/-- Whether the text is at the end of a line, at a space or at a tab. -/
def atBlank (cs : List Char) : Bool :=
  match cs with
  | [] => true
  | c :: _ => isBreak c || isSpace c

/-- The characters of names: of anchors, of handles and of directives. -/
def isNameChar (c : Char) : Bool :=
  Chars.isDecimal c || ('A' ≤ c && c ≤ 'Z') || ('a' ≤ c && c ≤ 'z') || c == '-' || c == '_'

/-! ## Scans -/

/-- The text without a line feed at its end. -/
def dropLastBreak (cs : List Char) : List Char :=
  if cs.getLast? == some '\n' then cs.dropLast else cs

def skipSpaces (cs : List Char) : List Char := cs.dropWhile (· == ' ')

def skipLine (cs : List Char) : List Char := cs.dropWhile (!isBreak ·)

/-- The text from the end of the line on, if a comment starts here. -/
def skipComment (cs : List Char) : List Char :=
  if cs.head? == some '#' then skipLine cs else cs

/-- What a break counts as: a line feed, or one of the two separators. -/
def breakOf (c : Char) : Char := if c == '\u0085' then '\n' else c

/-- The break at the start of a text, and the text behind it. -/
def takeBreak? (cs : List Char) : Option (Char × List Char) :=
  match cs with
  | [] => none
  | c :: rest => if isBreak c then some (breakOf c, rest) else none

/-- The text behind the break that it starts with, if it does. -/
def skipBreak (cs : List Char) : List Char :=
  match takeBreak? cs with
  | some (_, rest) => rest
  | none => cs

/-- The text from the next line on, if nothing but spaces and a comment are left on this one. -/
def finishLine? (cs : List Char) : Option (List Char) :=
  let rest := skipComment (skipSpaces cs)
  if atBreak rest then some (skipBreak rest) else none

/-- Whether a line that starts here separates documents. -/
def atSeparator (cs : List Char) : Bool :=
  match cs with
  | '-' :: '-' :: '-' :: rest => atBlank rest
  | '.' :: '.' :: '.' :: rest => atBlank rest
  | _ => false

end Yaml

end ChatCommands
