import ChatCommands.Yaml.Characters

/-!
# Places in a text

A cursor is a place in a text: the text from there on, and where that is. The byte order mark takes
up no column.
-/

namespace ChatCommands

namespace Yaml

/-- A place in a text. -/
structure Cursor where
  rest : List Char
  index : Nat
  line : Nat
  column : Nat

namespace Cursor

def start (cs : List Char) : Cursor := ⟨cs, 0, 0, 0⟩

def advance (c : Cursor) : Cursor :=
  match c.rest with
  | [] => c
  | head :: rest =>
    if isBreak head then ⟨rest, c.index + 1, c.line + 1, 0⟩
    else ⟨rest, c.index + 1, c.line, if head == mark then c.column else c.column + 1⟩

/-- The place behind a number of characters. -/
def skip (c : Cursor) : (count : Nat) → Cursor
  | 0 => c
  | count + 1 => (c.advance).skip count

/-- The place where a text is left, which is an end of the text from here on. -/
def moveTo (c : Cursor) (rest : List Char) : Cursor :=
  c.skip (c.rest.length - rest.length)

def peek? (c : Cursor) : Option Char := c.rest.head?

end Cursor

end Yaml

end ChatCommands
