import ChatCommands.Yaml.Characters

/-!
# Plain scalars

A scalar without quotes runs until something that ends it, and may go on in further lines. A gap
between two of its runs is kept when it is made of spaces; a line break in it becomes a space, and
empty lines become line feeds.
-/

namespace ChatCommands

namespace Yaml

/-- What a line break and the breaks of the empty lines behind it become inside a scalar. -/
def foldBreaks (first : Char) (more : List Char) : List Char :=
  if first != '\n' then first :: more
  else if more.isEmpty then [' ']
  else more

namespace Plain

/-! ## Runs -/

/-- The characters that have a meaning of their own inside brackets. -/
def isFlowChar (c : Char) : Bool := ",[]\x7b\x7d".toList.contains c

/-- Whether a colon in front of the text separates a key from its value. -/
def isColonFree (inFlow : Bool) (behind : List Char) : Bool :=
  atBlank behind || (inFlow && (behind.head?.map isFlowChar).getD false)

/-- Whether a run ends in front of the character. -/
def endsRun (inFlow : Bool) (c : Char) (behind : List Char) : Bool :=
  isBreak c || isSpace c || (c == ':' && isColonFree inFlow behind) ||
    (inFlow && (isFlowChar c || c == '?'))

/-- The run at the start of a text, and the text behind it. -/
def takeRun (inFlow : Bool) : List Char → List Char × List Char
  | [] => ([], [])
  | c :: rest =>
    if endsRun inFlow c rest then ([], c :: rest)
    else
      let (run, behind) := takeRun inFlow rest
      (c :: run, behind)

/-! ## Gaps -/

/-- What stands behind a run. -/
structure Gap where
  text : List Char
  crossesLine : Bool
  -- the column behind the gap, when a line ends in it
  column : Nat
  rest : List Char

/-- The breaks of the empty lines at the start of a text, the column behind them and the text there;
no breaks if a line that separates documents comes up. -/
def emptyLines (column : Nat) : List Char → Option (List Char) × Nat × List Char
  | [] => (some [], column, [])
  | c :: rest =>
    if c == ' ' then emptyLines (column + 1) rest
    else if isBreak c then
      if atSeparator rest then (none, 0, rest)
      else
        let (breaks, column, behind) := emptyLines 0 rest
        (breaks.map (breakOf c :: ·), column, behind)
    else (some [], column, c :: rest)

/-- The gap at the start of a text. In front of a line that separates documents it becomes
nothing. -/
def Gap.read (cs : List Char) : Gap :=
  let spaces := cs.takeWhile (· == ' ')
  let rest := cs.dropWhile (· == ' ')
  match takeBreak? rest with
  | none => ⟨spaces, false, 0, rest⟩
  | some (first, rest) =>
    if atSeparator rest then ⟨[], true, 0, rest⟩
    else
      match emptyLines 0 rest with
      | (none, column, rest) => ⟨[], true, column, rest⟩
      | (some more, column, rest) => ⟨foldBreaks first more, true, column, rest⟩

/-- Whether the scalar ends with the gap: it became nothing, a comment follows, or the next line
stands too far to the left. -/
def Gap.isLast (g : Gap) (inFlow : Bool) (leastColumn : Nat) : Bool :=
  g.text.isEmpty || g.rest.head? == some '#' ||
    (!inFlow && g.crossesLine && g.column < leastColumn)

/-! ## Scalars -/

/-- A plain scalar, whether a line ends behind it, and the text behind that. -/
structure Read where
  text : List Char
  crossesLine : Bool
  rest : List Char

/-- The scalar from a text on; `before` is what the gap in front became. The fuel bounds the number
of runs. -/
def readFrom (inFlow : Bool) (leastColumn : Nat) :
    (fuel : Nat) → (before : List Char) → (crossesLine : Bool) → List Char → Read
  | 0, _, crossesLine, cs => ⟨[], crossesLine, cs⟩
  | fuel + 1, before, crossesLine, cs =>
    let (run, behind) := takeRun inFlow cs
    if run.isEmpty then ⟨[], crossesLine, cs⟩
    else
      let gap := Gap.read behind
      if gap.isLast inFlow leastColumn then ⟨before ++ run, gap.crossesLine, gap.rest⟩
      else
        let later := readFrom inFlow leastColumn fuel gap.text gap.crossesLine gap.rest
        { later with text := before ++ run ++ later.text }

/-- The plain scalar at the start of a text, whose lines do not stand left of a column. -/
def read (inFlow : Bool) (leastColumn : Nat) (cs : List Char) : Read :=
  readFrom inFlow leastColumn (cs.length + 1) [] false cs

end Plain

end Yaml

end ChatCommands
