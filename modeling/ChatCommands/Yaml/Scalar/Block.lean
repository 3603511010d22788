import ChatCommands.Yaml.Characters

/-!
# Block scalars

A block scalar is made of the lines below its header that are indented far enough. In a literal one
the line breaks stay; in a folded one a break between two lines that start with no blank becomes a
space, unless empty lines follow. The header may say how far the lines are indented, and what
becomes of the breaks at the end.
-/

namespace ChatCommands

namespace Yaml

namespace Block

/-! ## Headers -/

/-- What becomes of the breaks at the end. -/
inductive Chomping where
  | strip
  | clip
  | keep
deriving DecidableEq

/-- A header. -/
structure Header where
  chomping : Chomping
  -- how far the lines are indented below the block around, if it is said
  increment : Option Nat

def chomping? (cs : List Char) : Option (Chomping × List Char) :=
  match cs with
  | '+' :: rest => some (.keep, rest)
  | '-' :: rest => some (.strip, rest)
  | _ => none

/-- The increment at the start of a text, if there is one; zero is no increment. -/
def increment? (cs : List Char) : Option (Option Nat × List Char) :=
  match cs with
  | [] => some (none, [])
  | c :: rest =>
    match Chars.decimalDigit? c with
    | none => some (none, cs)
    | some 0 => none
    | some n => some (some n, rest)

/-- The signs of a header: chomping and increment, in either order. -/
def Header.signs? (cs : List Char) : Option (Header × List Char) :=
  match chomping? cs with
  | some (chomping, rest) =>
    (increment? rest).map fun (increment, rest) => (⟨chomping, increment⟩, rest)
  | none =>
    (increment? cs).map fun (increment, rest) =>
      match increment, chomping? rest with
      | some _, some (chomping, rest) => (⟨chomping, increment⟩, rest)
      | _, _ => (⟨.clip, increment⟩, rest)

/-- The header at the start of a text, and the text from the next line on. -/
def Header.read? (cs : List Char) : Option (Header × List Char) := do
  let (header, rest) ← Header.signs? cs
  if atGap rest then return (header, ← finishLine? rest) else none

/-! ## Lines -/

/-- The empty lines at the start of a text: their breaks, the column of the longest of them or of
the text behind, the column of that text, and the text. -/
def leadingLines (column : Nat) : List Char → List Char × Nat × Nat × List Char
  | [] => ([], column, column, [])
  | c :: rest =>
    if c == ' ' then leadingLines (column + 1) rest
    else if isBreak c then
      let (breaks, widest, last, behind) := leadingLines 0 rest
      (breakOf c :: breaks, max column widest, last, behind)
    else ([], column, column, c :: rest)

/-- The empty lines at the start of a text, when lines are indented to a column: their breaks, the
column behind, which is at most that one, and the text there. -/
def emptyLines (indent column : Nat) : List Char → List Char × Nat × List Char
  | [] => ([], column, [])
  | c :: rest =>
    if c == ' ' && column < indent then emptyLines indent (column + 1) rest
    else if isBreak c then
      let (breaks, last, behind) := emptyLines indent 0 rest
      (breakOf c :: breaks, last, behind)
    else ([], column, c :: rest)

/-- Whether a line starts with a space or a tab. -/
def startsBlank (cs : List Char) : Bool :=
  (cs.head?.map isSpace).getD false

/-- What a break between two lines becomes. -/
def joint (isFolded : Bool) (line : List Char) (breakChar : Option Char)
    (breaks next : List Char) : List Char :=
  if isFolded && breakChar == some '\n' && !startsBlank line && !startsBlank next then
    if breaks.isEmpty then [' '] else []
  else breakChar.toList

def tail (chomping : Chomping) (breakChar : Option Char) (breaks : List Char) : List Char :=
  match chomping with
  | .strip => []
  | .clip => breakChar.toList
  | .keep => breakChar.toList ++ breaks

/-- The lines that are indented to a column. `breaks` are the breaks of the empty lines in front and
`column` is where the text starts; the fuel bounds the number of lines. -/
def readFrom (isFolded : Bool) (chomping : Chomping) (indent : Nat) :
    (fuel : Nat) → (breaks : List Char) → (column : Nat) → List Char → List Char × List Char
  | 0, _, _, cs => ([], cs)
  | fuel + 1, breaks, column, cs =>
    if column != indent || cs.isEmpty then (tail chomping none breaks, cs)
    else
      let line := cs.takeWhile (!isBreak ·)
      let rest := cs.dropWhile (!isBreak ·)
      let breakChar := (takeBreak? rest).map Prod.fst
      let (more, next, behind) := emptyLines indent 0 (skipBreak rest)
      if next == indent && !behind.isEmpty then
        let between := joint isFolded line breakChar more behind
        let (later, rest) := readFrom isFolded chomping indent fuel more next behind
        (breaks ++ line ++ between ++ later, rest)
      else (breaks ++ line ++ tail chomping breakChar more, behind)

/-- The block scalar behind its sign, and the text behind it; its lines do not stand left of
`leastColumn`, which is one at least. -/
def read? (isFolded : Bool) (leastColumn : Nat) (cs : List Char) :
    Option (List Char × List Char) := do
  let (header, rest) ← Header.read? cs
  let (indent, breaks, column, body) : Nat × List Char × Nat × List Char :=
    match header.increment with
    | none =>
      let (breaks, widest, column, body) := leadingLines 0 rest
      (max leastColumn widest, breaks, column, body)
    | some increment =>
      let indent := leastColumn + increment - 1
      (indent, emptyLines indent 0 rest)
  return readFrom isFolded header.chomping indent (cs.length + 1) breaks column body

end Block

end Yaml

end ChatCommands
