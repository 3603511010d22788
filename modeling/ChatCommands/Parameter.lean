import ChatCommands.Failure
import ChatCommands.Schema
import ChatCommands.Value

/-!
# Parameters

A parameter is a named slot of a command's input. It converts the text it is given and writes the
result into the model of its command; it either takes the words that follow its name, or the whole
argument text. Its help has a header for the listing of all parameters and a detail of its own.
-/

namespace ChatCommands

/-! ## Actions on a model -/

/-- Work on a model that may fail. What was written before a failure stays written. -/
abbrev Action (α : Type) := ExceptT Failure (StateM Model) α

namespace Action

def write (name : String) (value : Value) : Action Unit :=
  modify fun model => model.insert name value

/-- The value under a name. A missing key fails with `missingKey`. -/
def read (name : String) : Action Value := do
  match (← get).get? name with
  | some value => return value
  | none => throw (.missingKey name)

end Action

/-! ## Help -/

structure ParameterHelp where
  -- the line that the listing of all parameters shows
  header : String
  -- the text that is shown for the parameter alone
  detail : String
deriving DecidableEq

namespace ParameterHelp

/-- The help with the given fields: a `header`, which must be there, and a `detail`. -/
def check (entries : List (Document × Document)) : Checked ParameterHelp :=
  let header := Schema.field "header" none Schema.text entries
  let detail := Schema.field "detail" (some "") Schema.text entries
  let closed := Schema.closed ["header", "detail"] entries
  ((header.both detail).both closed).map fun ((header, detail), _) => ⟨header, detail⟩

def assign (help : ParameterHelp) (field : String) (value : Document) : Checked ParameterHelp :=
  if field = "header" then
    ((Schema.text value).under (.field field)).map fun header => { help with header }
  else if field = "detail" then
    ((Schema.text value).under (.field field)).map fun detail => { help with detail }
  else (Checked.broken (.hasField field)).under (.field field)

end ParameterHelp

/-! ## Parameters -/

/-- A named slot of a command's input. -/
structure Parameter where
  label : String
  -- the name: the word behind which its value starts
  name : String
  wholeInput : Bool
  help : ParameterHelp
  -- how it converts a text: given its name and the text, it fails, or says what to write
  convert : (name value : String) → Except Failure (Action Unit)

namespace Parameter

/-- `convert` a text and write the result. -/
def parse (p : Parameter) (value : String) : Action Unit :=
  match p.convert p.name value with
  | .ok change => change
  | .error failure => throw failure

def display (p : Parameter) : String :=
  p.label ++ "(name=" ++ Text.quoted p.name ++ ", whole_input=" ++
    (if p.wholeInput then "True" else "False") ++ ")"

end Parameter

end ChatCommands
