import ChatCommands.Yaml.Meaning
import ChatCommands.Yaml.Token.Lexer

/-!
# Reading YAML

A text holds one document at most, with directives in front of it; a text without one stands for
nothing.
-/

namespace ChatCommands

namespace Yaml

/-! ## Directives -/

/-- What the directives so far have said. -/
structure Prologue where
  hasVersion : Bool
  handles : Handles

namespace Prologue

def empty : Prologue := ⟨false, []⟩

/-- What has been said after one more directive. A version is given once and is of the first
generation, and a handle is given a meaning once. -/
def add? (p : Prologue) : Directive → Option Prologue
  | .version major =>
    if p.hasVersion || major != 1 then none else some { p with hasVersion := true }
  | .handle name start =>
    if (p.handles.lookup name).isSome then none
    else some { p with handles := (name, start) :: p.handles }
  | .other => some p

/-- The handles of a document, those that every document has included. -/
def allHandles (p : Prologue) : Handles := p.handles ++ defaultHandles

/-- The handles that the directives in front of a document give, and the tokens from the start of
the document on. -/
def read? (p : Prologue) : List Token → Option (Handles × List Token)
  | .directive directive :: rest => do read? (← p.add? directive) rest
  | .documentStart :: rest => some (p.allHandles, rest)
  | _ => none

end Prologue

/-! ## Documents -/

/-- Whether nothing but ends of documents is left. -/
def isOver (tokens : List Token) : Bool := tokens.all (· == .documentEnd)

/-- The node at the start of the tokens, if it is all they describe. -/
def soleNode? (handles : Handles) (tokens : List Token) : Option Node := do
  let (node, rest) ← Node.read? handles (4 * tokens.length + 8) .block tokens
  if isOver rest && node.isSound then return node else none

/-- The node behind the start of a document, which may be empty. -/
def content? (handles : Handles) (tokens : List Token) : Option Node :=
  match tokens with
  | [] => some .empty
  | .directive _ :: _ => none
  | .documentStart :: _ => none
  | .documentEnd :: _ => if isOver tokens then some .empty else none
  | _ => soleNode? handles tokens

/-- The node of the only document; none if there is no document. -/
def root? (tokens : List Token) : Option (Option Node) :=
  match tokens with
  | [] => some none
  | .directive _ :: _ => do
    let (handles, rest) ← Prologue.empty.read? tokens
    return some (← content? handles rest)
  | .documentStart :: rest => (content? defaultHandles rest).map some
  | _ => (soleNode? defaultHandles tokens).map some

def decode (source : String) : Except Fault Document := do
  let cs := Chars.unifyBreaks source.toList
  if cs.all isAllowed then
    let tokens ← Token.scan cs
    match root? tokens with
    | none => throw .malformed
    | some none => return .null
    | some (some node) => node.document
  else throw .malformed

end Yaml

end ChatCommands
