import ChatCommands.Yaml.Fault
import ChatCommands.Yaml.Scalar.Plain

/-!
# Quoted scalars

Between single quotes every character stands for itself, a quote being written twice. Between double
quotes a backslash starts an escape. In both, a gap with a line break in it is folded, and no line
separates documents.
-/

namespace ChatCommands

namespace Yaml

namespace Quoted

/-! ## Escapes -/

/-- The characters that escapes of one letter stand for. -/
def letters : List (Char × Char) :=
  [('0', '\x00'), ('a', '\x07'), ('b', '\x08'), ('t', '\t'), ('\t', '\t'), ('n', '\n'),
    ('v', '\x0b'), ('f', '\x0c'), ('r', '\r'), ('e', '\x1b'), (' ', ' '), ('"', '"'),
    ('\\', '\\'), ('/', '/'), ('N', '\u0085'), ('_', '\u00a0'), ('L', '\u2028'), ('P', '\u2029')]

/-- The number of digits behind the letters that start the number of a character. -/
def digitsOf? : Char → Option Nat
  | 'x' => some 2
  | 'u' => some 4
  | 'U' => some 8
  | _ => none

/-- The character with a number. A `String` cannot hold half a surrogate pair, so U+FFFD stands
for it. -/
def characterOf (code : Nat) : Except Fault Char :=
  if h : code.isValidChar then .ok (Char.ofNatAux code h)
  else if code ≤ 0x10FFFF then .ok '\uFFFD'
  else if code ≤ 0x7FFFFFFF then .error (.scalar .codePoint)
  else .error (.scalar .codeTooLarge)

/-- The breaks of the empty lines from the start of a line on, and the text behind them; nothing if
a line separates documents. The fuel bounds the number of lines. -/
def emptyLines? : (fuel : Nat) → List Char → Option (List Char × List Char)
  | 0, _ => none
  | fuel + 1, cs =>
    if atSeparator cs then none
    else
      let rest := cs.dropWhile isSpace
      match takeBreak? rest with
      | none => some ([], rest)
      | some (first, rest) => (emptyLines? fuel rest).map fun (more, rest) => (first :: more, rest)

/-- What an escape stands for, and the text behind it; the text starts behind the backslash. -/
def escape (cs : List Char) : Except Fault (List Char × List Char) :=
  match cs with
  | [] => .error .malformed
  | c :: rest =>
    match letters.lookup c, digitsOf? c with
    | some character, _ => .ok ([character], rest)
    | none, some count =>
      let digits := rest.take count
      match Chars.number? Chars.hexDigit? 16 digits with
      | none => .error .malformed
      | some code =>
        if digits.length < count then .error .malformed
        else do return ([← characterOf code], rest.drop count)
    | none, none =>
      if isBreak c then
        match emptyLines? (rest.length + 1) rest with
        | none => .error .malformed
        | some (breaks, rest) => .ok (breaks, rest)
      else .error .malformed

/-! ## Scalars -/

/-- What a gap becomes, and the text behind it; the scalar has to go on there. -/
def gap (cs : List Char) : Except Fault (List Char × List Char) :=
  let spaces := cs.takeWhile isSpace
  let rest := cs.dropWhile isSpace
  match takeBreak? rest with
  | none => if rest.isEmpty then .error .malformed else .ok (spaces, rest)
  | some (first, rest) =>
    match emptyLines? (rest.length + 1) rest with
    | none => .error .malformed
    | some (more, rest) => .ok (foldBreaks first more, rest)

/-- The text up to the closing quote, and the text behind that. The fuel bounds the number of
pieces. -/
def readFrom (quote : Char) : (fuel : Nat) → List Char → Except Fault (List Char × List Char)
  | 0, _ => .error .malformed
  | fuel + 1, cs =>
    match cs with
    | [] => .error .malformed
    | c :: rest => do
      if c == '\'' && quote == '\'' && rest.head? == some '\'' then
        let (later, behind) ← readFrom quote fuel rest.tail
        return ('\'' :: later, behind)
      else if c == quote then return ([], rest)
      else if c == '\\' && quote == '"' then
        let (piece, rest) ← escape rest
        let (later, behind) ← readFrom quote fuel rest
        return (piece ++ later, behind)
      else if isSpace c || isBreak c then
        let (piece, rest) ← gap cs
        let (later, behind) ← readFrom quote fuel rest
        return (piece ++ later, behind)
      else
        let (later, behind) ← readFrom quote fuel rest
        return (c :: later, behind)

def read (quote : Char) (cs : List Char) : Except Fault (List Char × List Char) :=
  readFrom quote (cs.length + 1) cs

end Quoted

end Yaml

end ChatCommands
