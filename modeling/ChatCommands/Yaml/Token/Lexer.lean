import ChatCommands.Yaml.Cursor
import ChatCommands.Yaml.Scalar.Block
import ChatCommands.Yaml.Scalar.Quoted
import ChatCommands.Yaml.Token

/-!
# From characters to tokens

A colon makes a key of what stands in front of it, which is known only when the colon is reached. So
in front of whatever may turn out to be a key the lexer leaves an empty slot, and the colon fills
it. Tokens are never inserted or moved. A key fits on one line and has a limited length; where
nothing but a key can stand, its colon must come.

Outside of brackets the columns of the text give the structure: a key or a dash further to the right
opens a block, and text further to the left closes blocks.
-/

namespace ChatCommands

namespace Yaml

/-! ## State -/

/-- Something that may turn out to be a key. -/
structure PossibleKey where
  slot : Nat
  place : Cursor
  isRequired : Bool

/-- The state of the lexer. -/
structure Lexer where
  cursor : Cursor
  slots : Array (List Token)
  -- the columns of the open blocks, the innermost first
  blocks : List Nat
  -- what may turn out to be a key outside of brackets
  blockKey : Option PossibleKey
  -- what may turn out to be a key inside each open bracket, the innermost first
  flowKeys : List (Option PossibleKey)
  mayStartKey : Bool

/-- The greatest distance between the start of a key and its colon. -/
def keyLimit : Nat := 1024

namespace Lexer

def start (cs : List Char) : Lexer := ⟨Cursor.start cs, #[], [], none, [], true⟩

def inFlow (l : Lexer) : Bool := !l.flowKeys.isEmpty

/-- The column at which the lines of a scalar stand at least. -/
def leastColumn (l : Lexer) : Nat :=
  match l.blocks with
  | [] => 0
  | column :: _ => column + 1

/-- The lexer at the place where a text is left. -/
def moveTo (l : Lexer) (rest : List Char) : Lexer := { l with cursor := l.cursor.moveTo rest }

def emit (l : Lexer) (token : Token) : Lexer := { l with slots := l.slots.push [token] }

/-- The lexer with a flag that tells whether a key may start. -/
def allowKey (l : Lexer) (may : Bool) : Lexer := { l with mayStartKey := may }

/-! ## Keys -/

/-- What may turn out to be a key inside the innermost bracket, or outside of brackets. -/
def possibleKey (l : Lexer) : Option PossibleKey :=
  match l.flowKeys with
  | [] => l.blockKey
  | key :: _ => key

def setPossibleKey (l : Lexer) (key : Option PossibleKey) : Lexer :=
  match l.flowKeys with
  | [] => { l with blockKey := key }
  | _ :: keys => { l with flowKeys := key :: keys }

/-- Give up a possible key, which must not be a required one. -/
def forgetKey (l : Lexer) : Option Lexer :=
  match l.possibleKey with
  | some key => if key.isRequired then none else some (l.setPossibleKey none)
  | none => some l

/-- Leave a slot in front of what may turn out to be a key. -/
def saveKey (l : Lexer) : Option Lexer :=
  if l.mayStartKey then do
    let isRequired := !l.inFlow && l.blocks.head? == some l.cursor.column
    let l ← l.forgetKey
    let key := ⟨l.slots.size, l.cursor, isRequired⟩
    return { l with slots := l.slots.push [] }.setPossibleKey (some key)
  else some l

/-- Whether a possible key is out of reach: on another line, or too far off. -/
def isStale (l : Lexer) (key : PossibleKey) : Bool :=
  key.place.line != l.cursor.line || keyLimit < l.cursor.index - key.place.index

/-- Give up a possible key if it is out of reach. -/
def freshKey (l : Lexer) : Option PossibleKey → Option (Option PossibleKey)
  | none => some none
  | some key =>
    if l.isStale key then (if key.isRequired then none else some none) else some (some key)

/-- Give up all possible keys that are out of reach. -/
def forgetStaleKeys (l : Lexer) : Option Lexer := do
  let blockKey ← l.freshKey l.blockKey
  let flowKeys ← l.flowKeys.mapM l.freshKey
  return { l with blockKey, flowKeys }

/-! ## Blocks -/

/-- Close blocks that are open at the columns as long as the condition holds. -/
def closeWhile (isClosed : Nat → Bool) (l : Lexer) : List Nat → Lexer
  | [] => { l with blocks := [] }
  | column :: outer =>
    if isClosed column then closeWhile isClosed (l.emit .blockEnd) outer
    else { l with blocks := column :: outer }

/-- Close the blocks that stand right of a column; brackets keep all open. -/
def closeRightOf (l : Lexer) (column : Nat) : Lexer :=
  if l.inFlow then l else l.closeWhile (column < ·) l.blocks

/-- Close all blocks; brackets keep all open. -/
def closeAll (l : Lexer) : Lexer :=
  if l.inFlow then l else l.closeWhile (fun _ => true) l.blocks

/-- Whether a column lies right of all open blocks. -/
def opensBlock (l : Lexer) (column : Nat) : Bool :=
  match l.blocks with
  | [] => true
  | innermost :: _ => innermost < column

/-- Open a block at the column of the cursor if that lies right of all open ones. -/
def openBlock (l : Lexer) (token : Token) : Lexer :=
  let column := l.cursor.column
  if l.opensBlock column then { l.emit token with blocks := column :: l.blocks } else l

/-! ## Between tokens -/

/-- The text from the next token on, and whether a line ended in front of it. The fuel bounds the
number of lines. -/
def nextToken : (fuel : Nat) → List Char → Bool × List Char
  | 0, cs => (false, cs)
  | fuel + 1, cs =>
    let rest := skipComment (skipSpaces cs)
    match takeBreak? rest with
    | none => (false, rest)
    | some (_, rest) => (true, (nextToken fuel rest).2)

/-- Go to the next token. Behind the end of a line a key may start, unless a bracket is open. A byte
order mark in front of the text is skipped. -/
def toNextToken (l : Lexer) : Lexer :=
  let cs := l.cursor.rest
  let cs := if l.cursor.index == 0 && cs.head? == some mark then cs.tail else cs
  let (crossesLine, rest) := nextToken (cs.length + 1) cs
  let l := l.moveTo rest
  if crossesLine && !l.inFlow then l.allowKey true else l

/-! ## Tokens of one kind -/

/-- Take a token that starts or ends a document, or a directive: all blocks are closed. -/
def takeOuter (l : Lexer) (token : Token) (rest : List Char) : Option Lexer := do
  let l ← l.closeAll.forgetKey
  return ((l.emit token).moveTo rest).allowKey false

/-- Take a directive, which starts behind its sign. -/
def takeDirective (l : Lexer) (rest : List Char) : Except Fault Lexer := do
  let (directive, rest) ← Directive.read rest
  required (l.takeOuter (.directive directive) rest)

def takeOpening (l : Lexer) (token : Token) (rest : List Char) : Option Lexer := do
  let l ← l.saveKey
  let l := ((l.emit token).moveTo rest).allowKey true
  return { l with flowKeys := none :: l.flowKeys }

def takeClosing (l : Lexer) (token : Token) (rest : List Char) : Option Lexer := do
  let l ← l.forgetKey
  match l.flowKeys with
  | [] => none
  | _ :: outer => return { ((l.emit token).moveTo rest).allowKey false with flowKeys := outer }

def takeComma (l : Lexer) (rest : List Char) : Option Lexer := do
  let l ← l.forgetKey
  return ((l.emit .comma).moveTo rest).allowKey true

/-- Take the sign of an item or of a written key, which may open a block. -/
def takeSign (l : Lexer) (block token : Token) (rest : List Char) : Option Lexer :=
  if l.inFlow then do
    let l ← l.forgetKey
    return ((l.emit token).moveTo rest).allowKey (token == .dash)
  else if l.mayStartKey then do
    let l ← (l.openBlock block).forgetKey
    return ((l.emit token).moveTo rest).allowKey true
  else none

/-- Take a colon. It fills the slot in front of the possible key, or else it is the colon of a
written key. -/
def takeColon (l : Lexer) (rest : List Char) : Option Lexer :=
  match l.possibleKey with
  | some key =>
    let l := l.setPossibleKey none
    let opens := !l.inFlow && l.opensBlock key.place.column
    let tokens : List Token := if opens then [.blockMapping, .key] else [.key]
    let blocks := if opens then key.place.column :: l.blocks else l.blocks
    let l := { l with slots := l.slots.setIfInBounds key.slot tokens, blocks }
    some (((l.emit .value).moveTo rest).allowKey false)
  | none =>
    if l.inFlow then some (((l.emit .value).moveTo rest).allowKey false)
    else if l.mayStartKey then do
      let l ← (l.openBlock .blockMapping).forgetKey
      return ((l.emit .value).moveTo rest).allowKey true
    else none

/-- Take something that may turn out to be a key. -/
def takeNode (l : Lexer) (token : Token) (rest : List Char) : Option Lexer := do
  let l ← l.saveKey
  return ((l.emit token).moveTo rest).allowKey false

def takeQuoted (l : Lexer) (quote : Char) (rest : List Char) : Except Fault Lexer :=
  match l.saveKey with
  | none => .error .malformed
  | some l => do
    let (text, rest) ← Quoted.read quote rest
    return ((l.emit (.scalar (String.ofList text) false)).moveTo rest).allowKey false

def takeBlock (l : Lexer) (isFolded : Bool) (rest : List Char) : Option Lexer := do
  let l ← l.forgetKey
  let (text, rest) ← Block.read? isFolded (max 1 l.leastColumn) rest
  return ((l.emit (.scalar (String.ofList text) false)).moveTo rest).allowKey true

def takePlain (l : Lexer) : Option Lexer := do
  let read := Plain.read l.inFlow l.leastColumn l.cursor.rest
  let l ← l.takeNode (.scalar (String.ofList read.text) true) read.rest
  return l.allowKey read.crossesLine

/-! ## The next token -/

/-- The characters that no plain scalar starts with. -/
def indicators : List Char := "-?:,[]\x7b\x7d#&*!|>'\"%@`".toList

/-- Whether a plain scalar starts here. A dash may start one, and outside of brackets a question
mark or a colon, if no blank follows. -/
def startsPlain (inFlow : Bool) (c : Char) (behind : List Char) : Bool :=
  !(isBreak c || isSpace c) &&
    (!indicators.contains c ||
      (!atBlank behind && (c == '-' || (!inFlow && (c == '?' || c == ':')))))

/-- The token of a line of three signs, if such a line starts here. -/
def separator? (l : Lexer) : Option Token :=
  if l.cursor.column == 0 && atSeparator l.cursor.rest then
    some (if l.cursor.peek? == some '-' then .documentStart else .documentEnd)
  else none

/-- Take a token other than a directive or a scalar in quotes. -/
def takeToken (l : Lexer) (c : Char) (rest : List Char) : Option Lexer :=
  match l.separator? with
  | some token => l.takeOuter token (rest.drop 2)
  | none =>
    match c with
    | '[' => l.takeOpening .flowSequence rest
    | '\x7b' => l.takeOpening .flowMapping rest
    | ']' => l.takeClosing .flowSequenceEnd rest
    | '\x7d' => l.takeClosing .flowMappingEnd rest
    | ',' => l.takeComma rest
    | '*' => do
      let (name, rest) ← anchorName? rest
      l.takeNode (.aliasOf name) rest
    | '&' => do
      let (name, rest) ← anchorName? rest
      l.takeNode (.anchor name) rest
    | '!' => do
      let (tag, rest) ← WrittenTag.read? (c :: rest)
      l.takeNode (.tag tag) rest
    | _ =>
      if c == '-' && atBlank rest then l.takeSign .blockSequence .dash rest
      else if c == '?' && (l.inFlow || atBlank rest) then l.takeSign .blockMapping .key rest
      else if c == ':' && (l.inFlow || atBlank rest) then l.takeColon rest
      else if c == '|' && !l.inFlow then l.takeBlock false rest
      else if c == '>' && !l.inFlow then l.takeBlock true rest
      else if startsPlain l.inFlow c rest then l.takePlain
      else none

/-- Take the token that starts with a character, the text behind which is given. -/
def step (l : Lexer) (c : Char) (rest : List Char) : Except Fault Lexer :=
  if c == '\'' || c == '"' then l.takeQuoted c rest
  else if c == '%' && l.cursor.column == 0 then l.takeDirective rest
  else required (l.takeToken c rest)

/-- The tokens of all slots at the end of the text. -/
def finish (l : Lexer) : Except Fault (List Token) := do
  let l ← required l.closeAll.forgetKey
  return l.slots.toList.flatten

/-- The tokens from a state on. The fuel bounds the number of tokens. -/
def run : (fuel : Nat) → Lexer → Except Fault (List Token)
  | 0, _ => .error .malformed
  | fuel + 1, l =>
    match l.toNextToken.forgetStaleKeys with
    | none => .error .malformed
    | some l =>
      let l := l.closeRightOf l.cursor.column
      match l.cursor.rest with
      | [] => l.finish
      | c :: rest => do run fuel (← l.step c rest)

end Lexer

def Token.scan (cs : List Char) : Except Fault (List Token) :=
  Lexer.run (cs.length + 1) (Lexer.start cs)

end Yaml

end ChatCommands
